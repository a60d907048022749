import SmartWallet.Text.Strkey
import SmartWallet.Xdr.Basic

set_option autoImplicit false

/-! # Addresses

An address names an account, by its Ed25519 key, or a contract, by its identifier. Contracts also
have a text form, their strkey. -/

namespace SmartWallet

/-- The identifier of a contract. -/
structure ContractAddress where
  bytes : Bytes32
deriving DecidableEq

namespace ContractAddress

def text (c : ContractAddress) : String := Strkey.encode .contract c.bytes

/-- The contract that a strkey names. -/
def ofText? (text : String) : Option ContractAddress :=
  ContractAddress.mk <$> Strkey.decode? .contract text

end ContractAddress

inductive Address where
  /-- An account, by its key. -/
  | account (key : Bytes32)
  | contract (c : ContractAddress)
deriving DecidableEq

namespace Address

/-- The contract that an address names, if it names one. -/
def contract? : Address → Option ContractAddress
  | account _ => none
  | contract c => some c

/-- Reads the key of an account, for which there is one kind. -/
def readAccountKey : Xdr.Reader Bytes32 := do
  match ← .tag with
  | 0 => Xdr.read
  | _ => .invalid

def writeAccountKey (key : Bytes32) : Xdr.Encoding := .tag 0 ++ Xdr.write key

def read : Xdr.Reader Address := do
  match ← .tag with
  | 0 => account <$> readAccountKey
  | 1 => (fun b => contract ⟨b⟩) <$> Xdr.read
  | _ => .invalid

def write : Address → Xdr.Encoding
  | account key => .tag 0 ++ writeAccountKey key
  | contract c => .tag 1 ++ Xdr.write c.bytes

instance : Xdr Address := ⟨read, write⟩

end Address

end SmartWallet
