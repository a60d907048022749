import SmartWallet.Digest.Sha256
import SmartWallet.Authorization.Entry

set_option autoImplicit false

/-! # Preimages

What is hashed: before an entry is signed, and to derive the identifier of a new contract. Every
preimage starts with a number for its purpose and the identifier of the network, the digest of its
passphrase, so that no hash made for one purpose or network serves another. -/

namespace SmartWallet

/-- The identifier of a network. -/
def networkId (passphrase : String) : Bytes32 := Digest.sha256 (Bytes.ofString passphrase)

/-- What is hashed. -/
inductive Preimage where
  /-- For the identifier of a contract. -/
  | contractId (network : Bytes32) (preimage : ContractIdPreimage)
  /-- For the signature of an authorization. -/
  | authorization (network : Bytes32) (nonce : Int64) (expiration : UInt32)
      (invocation : Invocation)
deriving DecidableEq

namespace Preimage

def write : Preimage → Xdr.Encoding
  | contractId network preimage => .tag 8 ++ Xdr.write network ++ Xdr.write preimage
  | authorization network nonce expiration invocation =>
    .tag 9 ++ Xdr.write network ++ Xdr.write nonce ++ Xdr.write expiration
      ++ Xdr.write invocation

def toBytes (p : Preimage) : Except AuthError Bytes := (p.write.toBytes).mapError .xdr

def digest (p : Preimage) : Except AuthError Bytes32 := Digest.sha256 <$> p.toBytes

end Preimage

def authorizationPreimage (passphrase : String) (nonce : Int64) (expiration : UInt32)
    (invocation : Invocation) : Preimage :=
  .authorization (networkId passphrase) nonce expiration invocation

/-- What signers of an authorization sign. -/
def authorizationPayload (passphrase : String) (nonce : Int64) (expiration : UInt32)
    (invocation : Invocation) : Except AuthError Bytes32 :=
  (authorizationPreimage passphrase nonce expiration invocation).digest

/-- What signers of an entry sign when it is to expire at a ledger. -/
def AuthEntry.payload (e : AuthEntry) (passphrase : String) (expiration : UInt32) :
    Except AuthError Bytes32 := do
  let c ← e.addressCredentials
  authorizationPayload passphrase c.nonce expiration e.rootInvocation

/-! ## Contract identifiers -/

/-- The preimage of the contract that an address deploys with a salt. -/
def deploymentPreimage (passphrase : String) (deployer : Address) (salt : Bytes32) : Preimage :=
  .contractId (networkId passphrase) (.address deployer salt)

/-- The contract that an address deploys with a salt. -/
def deriveContract (passphrase : String) (deployer : Address) (salt : Bytes32) :
    Except AuthError ContractAddress :=
  ContractAddress.mk <$> (deploymentPreimage passphrase deployer salt).digest

/-- The wallet that a factory deploys for a passkey. -/
def deriveWallet (passphrase : String) (factory : ContractAddress) (credentialId : Bytes) :
    Except AuthError ContractAddress :=
  deriveContract passphrase (.contract factory) (Digest.sha256 credentialId)

end SmartWallet
