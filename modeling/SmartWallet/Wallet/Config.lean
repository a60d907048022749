import SmartWallet.Address
import SmartWallet.Json.Record

set_option autoImplicit false

/-! # Configuration

What a wallet session is set up with: the network, the factory whose wallets it finds, and how long
signatures are valid. The configuration has a JSON form in which every field has a default. A
*valid* one names a factory and makes signatures last for at least one ledger. -/

namespace SmartWallet

/-- How many seconds pass between two ledgers. -/
def ledgerCloseSeconds : UInt32 := 5

/-- How many seconds signatures are valid unless something else is said. -/
def defaultTimeoutSeconds : UInt32 := 300

/-- The known networks. -/
inductive Network where
  | main
  | test
  /-- The network for features to come. -/
  | future
deriving DecidableEq, Repr

def Network.passphrase : Network → String
  | main => "Public Global Stellar Network ; September 2015"
  | test => "Test SDF Network ; September 2015"
  | future => "Test SDF Future Network ; October 2022"

/-- What a session is set up with. -/
structure Config where
  /-- Where the ledger is asked. -/
  rpcUrl : String
  networkPassphrase : String
  factoryContractId : String
  /-- How many seconds signatures are valid. -/
  timeoutSeconds : UInt32
  /-- The domain for ceremonies, if it is not that of the page. -/
  rpId : Option String
deriving DecidableEq

/-- Why a configuration is refused. -/
inductive ConfigError where
  | emptyPassphrase
  /-- Signatures would not last for one ledger. -/
  | timeoutTooShort (seconds : UInt32)
  /-- The factory is not named by a strkey. -/
  | factoryContractId
deriving DecidableEq, Repr

/-- The report of a refused configuration. -/
def ConfigError.message : ConfigError → String
  | emptyPassphrase => "network passphrase is empty"
  | timeoutTooShort seconds =>
    s!"timeout must cover at least one ledger, got {seconds.toNat}s"
  | factoryContractId => "factory contract id: strkey: the strkey is invalid"

namespace Config

/-- The configuration for a known network. -/
def ofNetwork (rpcUrl : String) (network : Network) (factoryContractId : String) : Config :=
  ⟨rpcUrl, network.passphrase, factoryContractId, defaultTimeoutSeconds, none⟩

def toJson (c : Config) : Json :=
  Json.ofFields ([("rpc_url", .ofText c.rpcUrl),
      ("network_passphrase", .ofText c.networkPassphrase),
      ("factory_contract_id", .ofText c.factoryContractId),
      ("timeout_secs", .ofInt c.timeoutSeconds.toNat)]
    ++ Json.optionalField "rp_id" .ofText c.rpId)

def ofJson? (v : Json) : Option Config := do
  let f ← Json.fields? ["rpc_url", "network_passphrase", "factory_contract_id", "timeout_secs",
    "rp_id"] v
  return {
    rpcUrl := ← f.withDefault "rpc_url" Json.text? ""
    networkPassphrase := ← f.withDefault "network_passphrase" Json.text? Network.test.passphrase
    factoryContractId := ← f.withDefault "factory_contract_id" Json.text? ""
    timeoutSeconds := ← f.withDefault "timeout_secs" Json.uint32? defaultTimeoutSeconds
    rpId := ← f.optional "rp_id" Json.text? }

/-- The configuration read from JSON text. -/
def parse? (text : Bytes) : Option Config := (Json.parse text).bind ofJson?

/-- The factory of a valid configuration. -/
def validate (c : Config) : Except ConfigError ContractAddress :=
  if c.networkPassphrase = "" then .error .emptyPassphrase
  else if c.timeoutSeconds < ledgerCloseSeconds then .error (.timeoutTooShort c.timeoutSeconds)
  else
    match ContractAddress.ofText? c.factoryContractId with
    | some factory => .ok factory
    | none => .error .factoryContractId

/-- For how many ledgers signatures are valid. -/
def ledgersToLive (c : Config) : UInt32 := c.timeoutSeconds / ledgerCloseSeconds

end Config

end SmartWallet
