import SmartWallet.Authorization.Invocation
import SmartWallet.Signer.Basic

set_option autoImplicit false

/-! # Authorization entries

An entry says who allows an invocation. Either that is the source account of the
transaction, or an address with credentials of its own: a nonce, the last ledger at which
they are valid, and a signature value. A wallet takes for its signature value a map from
signer keys to signatures, sorted by key.

`addSignature` puts one more pair into that map and sets the expiration;
`signatures` reads the map. -/

namespace SmartWallet

structure AddressCredentials where
  address : Address
  /-- A number that the address uses once. -/
  nonce : Int64
  /-- The last ledger at which the signature is valid. -/
  expiration : UInt32
  signature : ScVal
deriving DecidableEq

/-- Who allows an invocation. -/
inductive Credentials where
  /-- The source account of the transaction. -/
  | sourceAccount
  /-- An address with credentials of its own. -/
  | address (c : AddressCredentials)
deriving DecidableEq

/-- An authorization entry. -/
structure AuthEntry where
  credentials : Credentials
  rootInvocation : Invocation
deriving DecidableEq

/-! ## Binary form -/

namespace AddressCredentials

def read : Xdr.Reader AddressCredentials :=
  return ⟨← Xdr.read, ← Xdr.read, ← Xdr.read, ← Xdr.read⟩

def write (c : AddressCredentials) : Xdr.Encoding :=
  Xdr.write c.address ++ Xdr.write c.nonce ++ Xdr.write c.expiration ++ Xdr.write c.signature

instance : Xdr AddressCredentials := ⟨read, write⟩

end AddressCredentials

namespace Credentials

def read : Xdr.Reader Credentials := do
  match ← .tag with
  | 0 => return sourceAccount
  | 1 => address <$> Xdr.read
  | _ => .invalid

def write : Credentials → Xdr.Encoding
  | sourceAccount => .tag 0
  | address c => .tag 1 ++ Xdr.write c

instance : Xdr Credentials := ⟨read, write⟩

end Credentials

namespace AuthEntry

def read : Xdr.Reader AuthEntry := return ⟨← Xdr.read, ← Xdr.read⟩

def write (e : AuthEntry) : Xdr.Encoding := Xdr.write e.credentials ++ Xdr.write e.rootInvocation

instance : Xdr AuthEntry := ⟨read, write⟩

/-! ## Signatures -/

/-- The credentials of the address that allows the entry. -/
def addressCredentials (e : AuthEntry) : Except AuthError AddressCredentials :=
  match e.credentials with
  | .address c => .ok c
  | .sourceAccount => .error .unsupportedCredentials

/-- Replaces the signature value. -/
def setSignature (e : AuthEntry) (v : ScVal) : Except AuthError AuthEntry := do
  let c ← e.addressCredentials
  return { e with credentials := .address { c with signature := v } }

/-- The pairs of a signature value; no value at all has none. -/
def containerEntries : ScVal → Except AuthError (List ScMapEntry)
  | .void => .ok []
  | .map none => .ok []
  | .map (some entries) => .ok entries
  | v => .error (.unsupportedSignatureContainer v.kindName)

/-- A signer and its signature as a pair of the map. -/
def signatureEntry (signer : SignerKey) (signature : Option Signature) : ScMapEntry :=
  (signer.toScVal, Signature.optionToScVal signature)

/-- Adds a signature and sets the expiration. The pair goes behind those with the same key, and the
map is sorted. -/
def addSignature (e : AuthEntry) (signer : SignerKey) (signature : Option Signature)
    (expiration : UInt32) : Except AuthError AuthEntry := do
  let c ← e.addressCredentials
  let entries ← containerEntries c.signature
  let entries := ScVal.sortEntries (entries ++ [signatureEntry signer signature])
  return { e with
    credentials := .address { c with signature := .map (some entries), expiration := expiration } }

/-- The signer and the signature that a pair of the map writes. -/
def signatureOfEntry (e : ScMapEntry) : Except AuthError (SignerKey × Option Signature) := do
  let signer ← SignerKey.ofScVal e.1
  return (signer, ← Signature.optionOfScVal e.2)

/-- The signers and signatures in the order of the map. -/
def signatures (e : AuthEntry) : Except AuthError (List (SignerKey × Option Signature)) := do
  let c ← e.addressCredentials
  (← containerEntries c.signature).mapM signatureOfEntry

end AuthEntry

end SmartWallet
