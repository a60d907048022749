import SmartWallet.Signer.Basic
import SmartWallet.Transaction.LedgerKey

set_option autoImplicit false

/-! # A view of the ledger

What a session asks the ledger: the number of the latest ledger, and whether a contract keeps a live
value under a key. `LedgerView` answers from a fixed list of values, or not at all. -/

namespace SmartWallet

/-- A value that a contract keeps. -/
structure ContractDatum where
  contract : ContractAddress
  key : ScVal
  /-- How long it is kept. -/
  durability : Durability
deriving DecidableEq

namespace ContractDatum

/-- The instance of a deployed contract. -/
def instanceOf (contract : ContractAddress) : ContractDatum :=
  ⟨contract, .ledgerKeyContractInstance, .persistent⟩

/-- A signer that a wallet knows. -/
def signer (wallet : ContractAddress) (key : SignerKey) (durability : Durability) : ContractDatum :=
  ⟨wallet, key.toScVal, durability⟩

end ContractDatum

/-- A fixed list of values, as of one ledger. -/
structure LedgerView where
  /-- The number of the latest ledger. -/
  latest : UInt32
  /-- Whether there is no answer. -/
  unavailable : Bool
  /-- The live values. -/
  data : List ContractDatum

namespace LedgerView

/-- What an unavailable ledger reports. -/
def unavailableReason : String := "service unavailable"

/-- An answer, if there is one. -/
def answer {α : Type} (l : LedgerView) (x : α) : Except String α :=
  if l.unavailable then .error unavailableReason else .ok x

/-- The number of the latest ledger. -/
def latestLedger (l : LedgerView) : Except String UInt32 := l.answer l.latest

/-- Whether a value is live. -/
def contains (l : LedgerView) (d : ContractDatum) : Except String Bool :=
  l.answer (decide (d ∈ l.data))

end LedgerView

end SmartWallet
