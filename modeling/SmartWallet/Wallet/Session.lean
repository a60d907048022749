import SmartWallet.Authorization.Preimage
import SmartWallet.Transaction.Normalized
import SmartWallet.Wallet.Services
import SmartWallet.WebAuthn.Assertion

set_option autoImplicit false

/-! # Sessions

The client side of a smart wallet: it creates passkeys, finds the wallet of a passkey, and signs
authorization entries for it.

The first passkey that is created or given to `connectWallet` becomes the default one, and
signing requests are pinned to it unless they say otherwise. `signEntries` signs the
entries of the connected wallet in their order, all with one expiration; when one fails,
those before it stay signed. -/

namespace SmartWallet

/-! ## What is asked of a session -/

/-- Which passkey may answer a signing request. -/
inductive KeyIdPin where
  /-- Any that the authenticator finds. -/
  | any
  /-- The default one, or any if there is none. -/
  | default
  /-- The one with this id. -/
  | pinned (id : Bytes)
deriving DecidableEq

/-- How an entry is signed. -/
inductive SignMethod where
  | keypair (k : Ed25519.Keypair)
  | passkey (pin : KeyIdPin)
  /-- By a policy, which authorizes through an entry of its own and gives no signature. -/
  | policy (p : ContractAddress)
deriving DecidableEq

/-- What can be said about a signature. -/
structure SignOptions where
  /-- The last ledger at which it is valid, if it is not computed from the latest. -/
  expiration : Option UInt32
  /-- The domain for the ceremony, if it is not that of the configuration. -/
  rpId : Option String
deriving DecidableEq

/-- A passkey that was created. -/
structure CreatedKey where
  keyId : Bytes
  publicKey : Ecdsa.PublicKey
deriving DecidableEq

/-- A wallet that was found. -/
structure ConnectedWallet where
  keyId : Bytes
  contract : ContractAddress
  /-- Whether the wallet, if it is not the derived one, no longer knows the passkey. -/
  keyExpired : Bool
deriving DecidableEq

/-- A transaction to sign, as a value or as text. -/
inductive TransactionInput where
  | envelope (e : Envelope)
  | text (t : String)

def NormalizedTransaction.ofInput : TransactionInput → Except AuthError NormalizedTransaction
  | .envelope e => ofEnvelope e
  | .text t => ofText t

/-- The challenge of ceremonies that only register or identify a passkey. -/
def identifyChallenge : Bytes := Bytes.ofString "stellaristhebetterblockchain"

/-! ## The client -/

/-- A valid configuration with the services that answer. -/
structure Client (σ : Type) where
  config : Config
  factory : ContractAddress
  /-- The configuration is valid. -/
  validate_config : config.validate = .ok factory
  services : Services σ

/-- The client for a configuration. -/
def Client.ofConfig {σ : Type} (config : Config) (services : Services σ) :
    Except WalletError (Client σ) :=
  match h : config.validate with
  | .ok factory => .ok ⟨config, factory, h, services⟩
  | .error e => .error (.config e)

namespace Client

variable {σ : Type}

/-! ## Requests -/

/-- Asks for the number of the latest ledger. -/
def latestLedger (c : Client σ) : Action σ UInt32 :=
  .ask .latestLedger .ledger c.services.latestLedger

/-- Asks whether a value is live. -/
def contains (c : Client σ) (d : ContractDatum) : Action σ Bool :=
  .ask (.contractDatum d) .ledger (c.services.contains d)

/-- Asks for a registration. -/
def register (c : Client σ) (o : WebAuthn.RegistrationOptions) :
    Action σ WebAuthn.RegistrationResponse :=
  .ask (.registration o) .ceremony (c.services.register o)

/-- Asks for an authentication. -/
def authenticate (c : Client σ) (o : WebAuthn.AuthenticationOptions) :
    Action σ WebAuthn.AuthenticationResponse :=
  .ask (.authentication o) .ceremony (c.services.authenticate o)

/-! ## Passkeys and wallets -/

/-- Makes a passkey the default one, if there is none. -/
def rememberKey (keyId : Bytes) : Action σ Unit :=
  modify fun s => { s with keyId := s.keyId.or (some keyId) }

/-- The options for creating a passkey; `now` makes the handle of the user new each time. -/
def registrationOptions (c : Client σ) (app user : String) (now : Nat) :
    WebAuthn.RegistrationOptions where
  rp := ⟨c.config.rpId, app⟩
  user := ⟨Bytes.ofString (user ++ ":" ++ toString now), user, user⟩
  challenge := identifyChallenge
  pubKeyCredParams := [⟨WebAuthn.algorithmES256, .publicKey⟩]
  authenticatorSelection := some ⟨some .preferred, false, .discouraged⟩
  attestation := .none

/-- Creates a passkey. -/
def createKey (c : Client σ) (app user : String) (now : Nat) : Action σ CreatedKey := do
  let response ← c.register (c.registrationOptions app user now)
  let publicKey ← Action.ofExcept .credentialKey (WebAuthn.CredentialKey.extract response)
  rememberKey response.rawId
  return ⟨response.rawId, publicKey⟩

/-- Asks the user for a passkey. -/
def identify (c : Client σ) : Action σ Bytes := do
  let response ← c.authenticate ⟨identifyChallenge, c.config.rpId, [], .discouraged⟩
  return response.rawId

/-- Whether a contract does not keep a signer, or the ledger does not answer. -/
def isSignerExpired (c : Client σ) (contract : ContractAddress) (signer : SignerKey) :
    StateM (SessionState σ) Bool := do
  match ← (c.contains (.signer contract signer .temporary)).run with
  | .ok live => return !live
  | .error _ => return true

/-- The wallet that the factory deploys for a passkey. -/
def derivedWallet (c : Client σ) (keyId : Bytes) : Except AuthError ContractAddress :=
  deriveWallet c.config.networkPassphrase c.factory keyId

/-- Finds the wallet of a passkey: the derived one if it is deployed, else the fallback. -/
def findWallet (c : Client σ) (keyId : Bytes) (fallback : Option ContractAddress) :
    Action σ (ContractAddress × Bool) := do
  let derived ← (c.derivedWallet keyId : Except AuthError ContractAddress)
  if ← c.contains (.instanceOf derived) then
    return (derived, false)
  else
    match fallback with
    | some contract => return (contract, ← c.isSignerExpired contract (.secp256r1 keyId))
    | none => throw (.contractNotFound derived)

/-- Connects the wallet of a passkey, which the user is asked for unless it is given. -/
def connectWallet (c : Client σ) (keyId : Option Bytes) (fallback : Option ContractAddress) :
    Action σ ConnectedWallet := do
  let keyId ← match keyId with
    | some id => pure id
    | none => c.identify
  rememberKey keyId
  let (contract, expired) ← c.findWallet keyId fallback
  modify fun s => { s with wallet := some contract }
  return ⟨keyId, contract, expired⟩

/-! ## Signing one entry -/

/-- The sum, or the largest number if it is exceeded. -/
def saturatingAdd (a b : UInt32) : UInt32 :=
  UInt32.ofNat (min (a.toNat + b.toNat) 0xffffffff)

/-- The last ledger at which signatures are valid. -/
def expiration (c : Client σ) (o : SignOptions) : Action σ UInt32 := do
  match o.expiration with
  | some ledger => return ledger
  | none => return saturatingAdd (← c.latestLedger) c.config.ledgersToLive

/-- What is signed for an entry. -/
def payload (c : Client σ) (e : AuthEntry) (expiration : UInt32) : Except AuthError Bytes32 :=
  e.payload c.config.networkPassphrase expiration

/-- The passkeys that a pin admits; none for any. -/
def admitted (pin : KeyIdPin) (keyId : Option Bytes) : List Bytes :=
  match pin with
  | .any => []
  | .default => keyId.toList
  | .pinned id => [id]

/-- The options for signing a payload with a passkey. -/
def signingOptions (c : Client σ) (payload : Bytes32) (admitted : List Bytes)
    (rpId : Option String) : WebAuthn.AuthenticationOptions where
  challenge := payload.toList
  rpId := rpId.or c.config.rpId
  allowCredentials := admitted.map fun id => ⟨id, .publicKey⟩
  userVerification := .discouraged

/-- Has a payload signed with a passkey. -/
def passkeySignature (c : Client σ) (payload : Bytes32) (pin : KeyIdPin) (rpId : Option String) :
    Action σ (Bytes × WebAuthn.Assertion) := do
  let keyId := (← get).keyId
  let response ← c.authenticate (c.signingOptions payload (admitted pin keyId) rpId)
  let assertion ← Action.ofExcept .signature (WebAuthn.Assertion.ofResponse response.response)
  return (response.rawId, assertion)

/-- The signer of an entry with its signature. -/
def signature (c : Client σ) (e : AuthEntry) (method : SignMethod) (rpId : Option String)
    (expiration : UInt32) : Action σ (SignerKey × Option Signature) := do
  match method with
  | .keypair k =>
    let payload ← (c.payload e expiration : Except AuthError Bytes32)
    return (.ed25519 k.publicKey.bytes, some (.ed25519 (k.sign payload.toList).bytes))
  | .passkey pin =>
    let payload ← (c.payload e expiration : Except AuthError Bytes32)
    let (keyId, assertion) ← c.passkeySignature payload pin rpId
    return (.secp256r1 keyId, some (.secp256r1 assertion))
  | .policy p => return (.policy p, none)

/-- Signs an entry with a known expiration. -/
def signEntryAt (c : Client σ) (e : AuthEntry) (method : SignMethod) (rpId : Option String)
    (expiration : UInt32) : Action σ AuthEntry := do
  let (signer, x) ← c.signature e method rpId expiration
  (e.addSignature signer x expiration : Except AuthError AuthEntry)

/-- Signs an entry. An entry without credentials of its own is refused before anyone is asked. -/
def signEntry (c : Client σ) (e : AuthEntry) (method : SignMethod) (o : SignOptions) :
    Action σ AuthEntry := do
  let _ ← (e.addressCredentials : Except AuthError AddressCredentials)
  let ledger ← c.expiration o
  c.signEntryAt e method o.rpId ledger

/-! ## Signing the entries of a wallet -/

/-- Whether an entry is to be authorized by a wallet. -/
def isEntryOf (wallet : ContractAddress) (e : AuthEntry) : Bool :=
  match e.credentials with
  | .address a => a.address = .contract wallet
  | .sourceAccount => false

/-- The expiration that earlier entries got, or that of the first one. -/
def sharedExpiration (c : Client σ) (o : SignOptions) : Option UInt32 → Action σ UInt32
  | some ledger => return ledger
  | none => c.expiration o

/-- Signs one of several entries and says which expiration the next ones get. -/
def signNext (c : Client σ) (e : AuthEntry) (method : SignMethod) (o : SignOptions)
    (shared : Option UInt32) : Action σ (AuthEntry × UInt32) := do
  let ledger ← c.sharedExpiration o shared
  return (← c.signEntryAt e method o.rpId ledger, ledger)

/-- Signs the entries of a wallet in their order, up to the first that fails. Answers the entries as
they are afterwards. -/
def signFrom (c : Client σ) (wallet : ContractAddress) (method : SignMethod) (o : SignOptions) :
    Option UInt32 → List AuthEntry →
      StateM (SessionState σ) (Except WalletError Unit × List AuthEntry)
  | _, [] => return (.ok (), [])
  | shared, e :: rest => do
    if isEntryOf wallet e then
      match ← (c.signNext e method o shared).run with
      | .error error => return (.error error, e :: rest)
      | .ok (signed, ledger) =>
        let (outcome, rest) ← c.signFrom wallet method o (some ledger) rest
        return (outcome, signed :: rest)
    else
      let (outcome, rest) ← c.signFrom wallet method o shared rest
      return (outcome, e :: rest)

/-- Signs the entries of the connected wallet. Without entries no wallet is needed. -/
def signEntries (c : Client σ) (entries : List AuthEntry) (method : SignMethod)
    (o : SignOptions) : StateM (SessionState σ) (Except WalletError Unit × List AuthEntry) := do
  if entries.isEmpty then return (.ok (), entries)
  else
    match (← get).wallet with
    | none => return (.error .notConnected, entries)
    | some wallet => c.signFrom wallet method o none entries

/-! ## Transactions -/

/-- Signs the authorizations of a normalized transaction; other operations than the invocation of a
host function have none. -/
def signNormalized (c : Client σ) (t : NormalizedTransaction) (method : SignMethod)
    (o : SignOptions) : Action σ NormalizedTransaction := do
  if t.action.isInvocation then
    let (outcome, auth) ← (c.signEntries t.auth method o : StateM (SessionState σ) _)
    Action.ofExcept id outcome
    return { t with auth := auth }
  else return t

/-- Normalizes and signs a transaction and answers its text. -/
def sign (c : Client σ) (input : TransactionInput) (method : SignMethod) (o : SignOptions) :
    Action σ String := do
  let t ← (NormalizedTransaction.ofInput input : Except AuthError NormalizedTransaction)
  let t ← c.signNormalized t method o
  (t.text : Except AuthError String)

/-- Appends the policy entry for the entry at an index, to be asked by the connected wallet. -/
def attachPolicy (t : NormalizedTransaction) (index : Nat) (policy : ContractAddress) :
    Action σ NormalizedTransaction := do
  match (← get).wallet with
  | none => throw .notConnected
  | some wallet => (t.attachPolicy index policy wallet : Except AuthError NormalizedTransaction)

end Client

end SmartWallet
