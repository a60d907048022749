import SmartWallet.Authorization.Error
import SmartWallet.Ecdsa.Der
import SmartWallet.Wallet.Config
import SmartWallet.WebAuthn.CredentialKey

set_option autoImplicit false

/-! # Why a session operation fails

The causes of the parts that a session puts together, and two of its own. -/

namespace SmartWallet

/-- Why a session operation fails. -/
inductive WalletError where
  | auth (cause : AuthError)
  /-- A registration shows no key. -/
  | credentialKey (cause : WebAuthn.CredentialKeyError)
  /-- The signature of an authentication cannot be read. -/
  | signature (cause : Ecdsa.Der.ParseError)
  /-- The ledger does not answer. -/
  | ledger (reason : String)
  /-- A ceremony gave no response. -/
  | ceremony (cause : WebAuthn.CeremonyError)
  | notConnected
  /-- No wallet is deployed at the derived address, and there is no other to fall back to. -/
  | contractNotFound (derived : ContractAddress)
  | config (cause : ConfigError)
deriving DecidableEq

/-- The report of a failed operation, unless its cause has none. -/
def WalletError.message? : WalletError → Option String
  | auth cause => cause.message?
  | credentialKey cause => cause.message?
  | signature cause => some ("signature: " ++ cause.message)
  | ledger reason => some ("rpc: " ++ reason)
  | ceremony cause => some cause.message
  | notConnected => some "wallet is not connected"
  | contractNotFound derived =>
    some ("no wallet found for the key, derived address " ++ derived.text ++ " does not exist")
  | config cause => some ("config: " ++ cause.message)

end SmartWallet
