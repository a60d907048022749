import SmartWallet.Address

set_option autoImplicit false

/-! # Accounts and their signers

Transactions name accounts by key, sometimes together with a number by which the account tells its
own users apart, and so virtual accounts share one real one. An account is signed for by keys, or by
whatever shows the preimage of a hash. -/

namespace SmartWallet

/-- An account, perhaps with the number of one of its users. -/
inductive MuxedAccount where
  /-- The account itself. -/
  | account (key : Bytes32)
  /-- One of its users. -/
  | user (id : UInt64) (key : Bytes32)
deriving DecidableEq

/-- What can sign for an account. -/
inductive AccountSigner where
  | ed25519 (key : Bytes32)
  /-- The transaction with this hash, which needs no signature. -/
  | preAuthTransaction (hash : Bytes32)
  /-- Whoever shows the preimage of this hash. -/
  | hashX (hash : Bytes32)
  /-- A key, for a payload that is no transaction. -/
  | signedPayload (key : Bytes32) (payload : Bytes)
deriving DecidableEq

namespace MuxedAccount

def read : Xdr.Reader MuxedAccount := do
  match ← .tag with
  | 0 => account <$> Xdr.read
  | 0x100 => return user (← Xdr.read) (← Xdr.read)
  | _ => .invalid

def write : MuxedAccount → Xdr.Encoding
  | account key => .tag 0 ++ Xdr.write key
  | user id key => .tag 0x100 ++ Xdr.write id ++ Xdr.write key

instance : Xdr MuxedAccount := ⟨read, write⟩

end MuxedAccount

namespace AccountSigner

/-- The longest payload. -/
def maxPayloadLength : Nat := 64

def read : Xdr.Reader AccountSigner := do
  match ← .tag with
  | 0 => ed25519 <$> Xdr.read
  | 1 => preAuthTransaction <$> Xdr.read
  | 2 => hashX <$> Xdr.read
  | 3 => return signedPayload (← Xdr.read) (← .opaqueBytes maxPayloadLength)
  | _ => .invalid

def write : AccountSigner → Xdr.Encoding
  | ed25519 key => .tag 0 ++ Xdr.write key
  | preAuthTransaction hash => .tag 1 ++ Xdr.write hash
  | hashX hash => .tag 2 ++ Xdr.write hash
  | signedPayload key payload => .tag 3 ++ Xdr.write key ++ .opaqueBytes maxPayloadLength payload

instance : Xdr AccountSigner := ⟨read, write⟩

end AccountSigner

end SmartWallet
