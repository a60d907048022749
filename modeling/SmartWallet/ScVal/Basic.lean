import SmartWallet.Address

set_option autoImplicit false

/-! # Contract values

`ScVal` is the value type of smart contracts: what they take, return and store. Vectors
and maps hold values again, and may be missing altogether. A map is a list of pairs:
nothing in the type keeps its keys sorted or distinct, which is why looking a key up means
taking the first pair that has it. -/

namespace SmartWallet

/-- Why a contract failed: a code of its own, or one of ten codes of
one of nine parts of the host. -/
inductive ScError where
  /-- A code of the contract. -/
  | contract (code : UInt32)
  /-- A code of the host. -/
  | host (part : Fin 9) (code : Fin 10)
deriving DecidableEq

/-- The code of a contract. -/
inductive ContractExecutable where
  /-- A program, by its digest. -/
  | wasm (digest : Bytes32)
  /-- The built-in code for assets of the ledger. -/
  | stellarAsset
deriving DecidableEq

/-- A contract value. -/
inductive ScVal where
  | bool (b : Bool)
  | void
  | error (e : ScError)
  /-- A natural number of 32 bits. -/
  | u32 (v : UInt32)
  /-- An integer of 32 bits. -/
  | i32 (v : Int32)
  /-- A natural number of 64 bits. -/
  | u64 (v : UInt64)
  /-- An integer of 64 bits. -/
  | i64 (v : Int64)
  | timepoint (v : UInt64)
  | duration (v : UInt64)
  /-- A natural number of 128 bits, in halves. -/
  | u128 (hi lo : UInt64)
  /-- An integer of 128 bits, in halves. -/
  | i128 (hi : Int64) (lo : UInt64)
  /-- A natural number of 256 bits, in quarters. -/
  | u256 (hiHi hiLo loHi loLo : UInt64)
  /-- An integer of 256 bits, in quarters. -/
  | i256 (hiHi : Int64) (hiLo loHi loLo : UInt64)
  | bytes (b : Bytes)
  /-- A text. -/
  | string (b : Bytes)
  /-- A symbol, a text of at most 32 bytes. -/
  | symbol (b : Bytes)
  /-- A vector, which may be missing. -/
  | vec (items : Option (List ScVal))
  /-- A map, which may be missing. -/
  | map (entries : Option (List (ScVal × ScVal)))
  | address (a : Address)
  /-- The key under which a contract's instance is stored. -/
  | ledgerKeyContractInstance
  /-- The key under which a used nonce is stored. -/
  | ledgerKeyNonce (nonce : Int64)
  /-- A contract's instance: its code and its own storage, which may be missing. -/
  | contractInstance (executable : ContractExecutable) (storage : Option (List (ScVal × ScVal)))

/-- A pair of a map. -/
abbrev ScMapEntry := ScVal × ScVal

namespace ScVal

/-- The longest symbol. -/
def maxSymbolLength : Nat := 32

/-- The name of a value's kind. -/
def kindName : ScVal → String
  | bool _ => "Bool"
  | void => "Void"
  | error _ => "Error"
  | u32 _ => "U32"
  | i32 _ => "I32"
  | u64 _ => "U64"
  | i64 _ => "I64"
  | timepoint _ => "Timepoint"
  | duration _ => "Duration"
  | u128 .. => "U128"
  | i128 .. => "I128"
  | u256 .. => "U256"
  | i256 .. => "I256"
  | bytes _ => "Bytes"
  | string _ => "String"
  | symbol _ => "Symbol"
  | vec _ => "Vec"
  | map _ => "Map"
  | address _ => "Address"
  | ledgerKeyContractInstance => "LedgerKeyContractInstance"
  | ledgerKeyNonce _ => "LedgerKeyNonce"
  | contractInstance .. => "ContractInstance"

end ScVal

end SmartWallet
