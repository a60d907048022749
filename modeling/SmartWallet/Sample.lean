import SmartWallet.Transaction.Envelope
import SmartWallet.Wallet.Environment
import SmartWallet.Wallet.Session
import SmartWallet.WebAuthn.CredentialKey

set_option autoImplicit false

/-! # Sample values

A wallet, a transfer of tokens out of it, the entry that authorizes the transfer and the transaction
around it; a credential with its authenticator data; and a client with an authenticator and a
ledger. They serve wherever a concrete, complete value is wanted. -/

namespace SmartWallet.Sample

/-! ## Authorizations -/

/-- The contract whose identifier repeats one byte. -/
def contractOf (x : UInt8) : ContractAddress := ⟨.replicate 32 x⟩

def wallet : ContractAddress := contractOf 0xc0

def token : ContractAddress := contractOf 0x70

/-- Whoever receives the token. -/
def recipient : ContractAddress := contractOf 0xdd

/-- A transfer of a hundred tokens. -/
def transfer : ContractCall where
  contract := .contract token
  function := Bytes.ofString "transfer"
  args := [.address (.contract wallet), .address (.contract recipient), .u32 100]

def invocation : Invocation := .mk (.call transfer) []

/-- The entry, not signed yet, by which an address authorizes the transfer. -/
def entry (address : ContractAddress) (nonce : Int64) : AuthEntry :=
  ⟨.address ⟨.contract address, nonce, 0, .void⟩, invocation⟩

/-! ## Transactions -/

/-- The envelope of a transaction with the given operations. -/
def envelope (operations : List Operation) : Envelope :=
  .current ⟨⟨.account (.replicate 32 0x5a), 1234567, 42, .none, .none, operations, none⟩, []⟩

/-- The envelope of the transfer with its authorizations. -/
def transferEnvelope (auth : List AuthEntry) : Envelope :=
  envelope [⟨none, .invokeHostFunction (.invoke transfer) auth⟩]

/-! ## Credentials -/

/-- The hash of the domain `localhost`. -/
def rpIdHash : Bytes :=
  Bytes.ofNat 32 0x49960de5880e8c687434170f6476605b8fe4aeb9a28632c7995cf3ba831d9763

/-- The name of a credential. -/
def credentialId : Bytes := Bytes.ofNat 20 0x7db07573390caca2ae5e5defdffb701f4fd5a895

/-- The first coordinate of its key. -/
def x : Bytes32 :=
  .ofNat 32 0x91610ab866a7448b71a73e61344e72af9229abad5480f3839f69a6337b862af5

/-- The second coordinate of its key. -/
def y : Bytes32 :=
  .ofNat 32 0x226a34d02d1bd2e0d8aff28377876e41d482aad7d51464791f6c8c9a0d73c6b8

def publicKey : Ecdsa.PublicKey := .ofCoordinates x y

/-- The authenticator data of a registration of the credential. -/
def attestedData : Bytes :=
  rpIdHash ++ [0x45] ++ Bytes.ofNat 4 0 ++ List.replicate 16 0 ++ Bytes.ofNat 2 20 ++ credentialId
    ++ WebAuthn.coseHeader ++ x.toList ++ WebAuthn.coseSeparator ++ y.toList

/-! ## Sessions -/

def factory : ContractAddress := contractOf 0xfa

/-- A configuration that names it. -/
def config : Config := .ofNetwork "https://localhost" .test factory.text

theorem ofText?_factory : ContractAddress.ofText? factory.text = some factory := by decide +kernel

theorem validate_config : config.validate = .ok factory := by
  unfold Config.validate
  have htext : config.factoryContractId = factory.text := by rw [config, Config.ofNetwork]
  rw [if_neg (by decide), if_neg (by decide), htext, ofText?_factory]

/-- The client for the configuration. -/
def client : Client Environment := ⟨config, factory, validate_config, Environment.services⟩

/-- An authenticator that makes high signatures. -/
def authenticator : WebAuthn.SoftwareAuthenticator :=
  ⟨⟨.replicate 32 0x2a⟩, credentialId, .full, true, false⟩

/-- Services with the authenticator and a ledger that keeps the given values. -/
def environment (data : List ContractDatum) : Environment :=
  ⟨⟨1000, false, data⟩, .software authenticator⟩

/-- A session at its start, with a ledger that keeps nothing. -/
def session : SessionState Environment := .start (environment [])

def connected : SessionState Environment := { session with wallet := some wallet }

end SmartWallet.Sample
