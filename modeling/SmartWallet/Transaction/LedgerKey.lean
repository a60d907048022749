import SmartWallet.ScVal.Binary
import SmartWallet.ScVal.Order
import SmartWallet.Transaction.Asset
import SmartWallet.Transaction.Claim

set_option autoImplicit false

/-! # Ledger keys

What entries of the ledger are found by. Contract data is found by the contract, a key of its choice
and how long it is kept. -/

namespace SmartWallet

/-- How long contract data is kept. -/
inductive Durability where
  | temporary
  | persistent
deriving DecidableEq

/-- What an entry of the ledger is found by. -/
inductive LedgerKey where
  | account (key : Bytes32)
  /-- A trust line of an account. -/
  | trustLine (owner : Bytes32) (asset : TrustLineAsset)
  | offer (seller : Bytes32) (id : Int64)
  /-- A named value of an account. -/
  | data (owner : Bytes32) (name : Bytes)
  | claimableBalance (id : ClaimableBalanceId)
  | liquidityPool (id : Bytes32)
  | contractData (contract : Address) (key : ScVal) (durability : Durability)
  /-- A program, by its digest. -/
  | contractCode (digest : Bytes32)
  /-- One of the settings of the network. -/
  | configSetting (id : Fin 14)
  /-- The time to live of an entry, by the hash of its key. -/
  | ttl (keyHash : Bytes32)
deriving DecidableEq

namespace Durability

def read : Xdr.Reader Durability := do
  match ← .tag with
  | 0 => return temporary
  | 1 => return persistent
  | _ => .invalid

def write : Durability → Xdr.Encoding
  | temporary => .tag 0
  | persistent => .tag 1

instance : Xdr Durability := ⟨read, write⟩

end Durability

namespace LedgerKey

/-- The longest name of a value of an account. -/
def maxNameLength : Nat := 64

def read : Xdr.Reader LedgerKey := do
  match ← .tag with
  | 0 => account <$> Address.readAccountKey
  | 1 => return trustLine (← Address.readAccountKey) (← Xdr.read)
  | 2 => return offer (← Address.readAccountKey) (← Xdr.read)
  | 3 => return data (← Address.readAccountKey) (← .opaqueBytes maxNameLength)
  | 4 => claimableBalance <$> Xdr.read
  | 5 => liquidityPool <$> Xdr.read
  | 6 => return contractData (← Xdr.read) (← Xdr.read) (← Xdr.read)
  | 7 => contractCode <$> Xdr.read
  | 8 => configSetting <$> .index 14
  | 9 => ttl <$> Xdr.read
  | _ => .invalid

def write : LedgerKey → Xdr.Encoding
  | account key => .tag 0 ++ Address.writeAccountKey key
  | trustLine owner asset => .tag 1 ++ Address.writeAccountKey owner ++ Xdr.write asset
  | offer seller id => .tag 2 ++ Address.writeAccountKey seller ++ Xdr.write id
  | data owner name =>
    .tag 3 ++ Address.writeAccountKey owner ++ .opaqueBytes maxNameLength name
  | claimableBalance id => .tag 4 ++ Xdr.write id
  | liquidityPool id => .tag 5 ++ Xdr.write id
  | contractData contract key durability =>
    .tag 6 ++ Xdr.write contract ++ Xdr.write key ++ Xdr.write durability
  | contractCode digest => .tag 7 ++ Xdr.write digest
  | configSetting id => .tag 8 ++ .tag id.val
  | ttl keyHash => .tag 9 ++ Xdr.write keyHash

instance : Xdr LedgerKey := ⟨read, write⟩

end LedgerKey

end SmartWallet
