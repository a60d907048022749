import SmartWallet.Ecdsa
import SmartWallet.Ed25519
import SmartWallet.ScVal.Shape
import SmartWallet.WebAuthn.Assertion

set_option autoImplicit false

/-! # Signers of a wallet

A wallet knows its signers by key: an Ed25519 public key, the address of a policy contract, or the
id of a passkey. An entry's signature map goes from signer keys to signatures, where a policy has
none. Each type here has its form as a contract value, `toScVal`, and the reading of that form,
`ofScVal`; for signer keys and for storage kinds each value has one form only.

The order of signer keys is that of their forms, so a list of keys can be sorted
before or after it is encoded. -/

namespace SmartWallet

/-! ## Signer keys -/

/-- What a wallet knows a signer by. -/
inductive SignerKey where
  | ed25519 (key : Bytes32)
  | policy (address : ContractAddress)
  /-- A passkey, by its credential id. -/
  | secp256r1 (credentialId : Bytes)
deriving DecidableEq

namespace SignerKey

/-- The place of a kind of key in the order. -/
def rank : SignerKey → Nat
  | ed25519 _ => 0
  | policy _ => 1
  | secp256r1 _ => 2

/-- What keys of one kind are ordered by. -/
def content : SignerKey → Bytes
  | ed25519 key => key.toList
  | policy address => address.bytes.toList
  | secp256r1 credentialId => credentialId

/-- Keys are ordered by kind and then by content, lexicographically. -/
instance : Ord SignerKey :=
  ⟨fun a b => (compare a.rank b.rank).then (compare a.content b.content)⟩

/-- Sorts keys; equal keys keep their order. -/
def sort (keys : List SignerKey) : List SignerKey :=
  keys.mergeSort fun a b => (compare a b).isLE

/-- A key as a contract value. -/
def toScVal : SignerKey → ScVal
  | ed25519 key => .ofVariant "Ed25519" [.bytes key.toList]
  | policy address => .ofVariant "Policy" [.address (.contract address)]
  | secp256r1 credentialId => .ofVariant "Secp256r1" [.bytes credentialId]

/-- What a value that is no key is reported as. -/
def what : String := "signer key"

/-- The key that a contract value writes. -/
def ofScVal (v : ScVal) : Except AuthError SignerKey := do
  match ← v.asVariant what with
  | (tag, [payload]) =>
    if tag = Bytes.ofString "Policy" then policy <$> payload.asContract what
    else if tag = Bytes.ofString "Ed25519" then ed25519 <$> payload.asFixedBytes 32 what
    else if tag = Bytes.ofString "Secp256r1" then secp256r1 <$> payload.asBytes what
    else throw (.invalidScVal what)
  | _ => throw (.invalidScVal what)

end SignerKey

/-! ## Signatures -/

/-- A signature of an entry. -/
inductive Signature where
  | ed25519 (signature : FixedBytes 64)
  | secp256r1 (assertion : WebAuthn.Assertion)
deriving DecidableEq

namespace Signature

/-- A signature as a contract value. -/
def toScVal : Signature → ScVal
  | ed25519 signature => .ofVariant "Ed25519" [.bytes signature.toList]
  | secp256r1 a => .ofVariant "Secp256r1" [.ofRecord [
      ("authenticator_data", .bytes a.authenticatorData),
      ("client_data_json", .bytes a.clientDataJson),
      ("signature", .bytes a.signature.bytes.toList)]]

/-- What a value that is no signature is reported as. -/
def what : String := "signature"

/-- The assertion that the fields of a record write. -/
def assertionOfFields (fields : List ScMapEntry) : Except AuthError WebAuthn.Assertion := do
  let authenticatorData ← (← ScVal.field fields "authenticator_data" what).asBytes what
  let clientDataJson ← (← ScVal.field fields "client_data_json" what).asBytes what
  let signature ← (← ScVal.field fields "signature" what).asFixedBytes 64 what
  return ⟨authenticatorData, clientDataJson, ⟨signature⟩⟩

/-- The signature that a contract value writes. -/
def ofScVal (v : ScVal) : Except AuthError Signature := do
  match ← v.asVariant what with
  | (tag, [payload]) =>
    if tag = Bytes.ofString "Ed25519" then ed25519 <$> payload.asFixedBytes 64 what
    else if tag = Bytes.ofString "Secp256r1" then
      secp256r1 <$> assertionOfFields (← payload.asMap what)
    else throw (.invalidScVal what)
  | _ => throw (.invalidScVal what)

/-- A signature that may be missing, as a contract value. -/
def optionToScVal : Option Signature → ScVal
  | none => .void
  | some x => x.toScVal

/-- The signature, or its absence, that a contract value writes. -/
def optionOfScVal (v : ScVal) : Except AuthError (Option Signature) :=
  if v = .void then .ok none else some <$> ofScVal v

end Signature

/-! ## Storage -/

/-- Where a wallet keeps a signer. -/
inductive SignerStorage where
  | persistent
  /-- Until its ledger entry expires. -/
  | temporary
deriving DecidableEq, Repr

namespace SignerStorage

instance : Inhabited SignerStorage := ⟨persistent⟩

def name : SignerStorage → String
  | persistent => "Persistent"
  | temporary => "Temporary"

/-- A kind of storage as a contract value. -/
def toScVal (s : SignerStorage) : ScVal := .ofVariant s.name []

/-- What a value that is no kind of storage is reported as. -/
def what : String := "signer storage"

/-- The kind of storage that a contract value writes. -/
def ofScVal (v : ScVal) : Except AuthError SignerStorage := do
  match ← v.asVariant what with
  | (tag, []) =>
    if tag = Bytes.ofString persistent.name then return persistent
    else if tag = Bytes.ofString temporary.name then return temporary
    else throw (.invalidScVal what)
  | _ => throw (.invalidScVal what)

end SignerStorage

end SmartWallet
