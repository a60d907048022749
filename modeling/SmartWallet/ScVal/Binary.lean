import SmartWallet.ScVal.Basic

set_option autoImplicit false

/-! # The binary form of contract values

Every value starts with the number of its kind. Values nest, and each level takes at least four
bytes, so the number of bytes left bounds the depth: `ScVal.readWithin` reads up to a given depth,
and `ScVal.read` takes the number of bytes for it. -/

namespace SmartWallet

/-- Reads one of `n` consecutive numbers that start at zero. -/
def Xdr.Reader.index (n : Nat) : Xdr.Reader (Fin n) := do
  let v ← .tag
  if h : v < n then return ⟨v, h⟩ else .invalid

namespace ScError

def read : Xdr.Reader ScError := do
  let part ← .index 10
  if h : part.val = 0 then contract <$> Xdr.read
  else host ⟨part.val - 1, by omega⟩ <$> .index 10

def write : ScError → Xdr.Encoding
  | contract code => .tag 0 ++ Xdr.write code
  | host part code => .tag (part.val + 1) ++ .tag code.val

instance : Xdr ScError := ⟨read, write⟩

end ScError

namespace ContractExecutable

def read : Xdr.Reader ContractExecutable := do
  match ← .tag with
  | 0 => wasm <$> Xdr.read
  | 1 => return stellarAsset
  | _ => .invalid

def write : ContractExecutable → Xdr.Encoding
  | wasm digest => .tag 0 ++ Xdr.write digest
  | stellarAsset => .tag 1

instance : Xdr ContractExecutable := ⟨read, write⟩

end ContractExecutable

namespace ScVal

/-! ## Writing -/

mutual

/-- Writes a value. -/
def write : ScVal → Xdr.Encoding
  | bool b => .tag 0 ++ Xdr.write b
  | void => .tag 1
  | error e => .tag 2 ++ Xdr.write e
  | u32 v => .tag 3 ++ Xdr.write v
  | i32 v => .tag 4 ++ Xdr.write v
  | u64 v => .tag 5 ++ Xdr.write v
  | i64 v => .tag 6 ++ Xdr.write v
  | timepoint v => .tag 7 ++ Xdr.write v
  | duration v => .tag 8 ++ Xdr.write v
  | u128 hi lo => .tag 9 ++ Xdr.write hi ++ Xdr.write lo
  | i128 hi lo => .tag 10 ++ Xdr.write hi ++ Xdr.write lo
  | u256 hiHi hiLo loHi loLo =>
    .tag 11 ++ Xdr.write hiHi ++ Xdr.write hiLo ++ Xdr.write loHi ++ Xdr.write loLo
  | i256 hiHi hiLo loHi loLo =>
    .tag 12 ++ Xdr.write hiHi ++ Xdr.write hiLo ++ Xdr.write loHi ++ Xdr.write loLo
  | bytes b => .tag 13 ++ .opaqueBytes Xdr.maxLength b
  | string b => .tag 14 ++ .opaqueBytes Xdr.maxLength b
  | symbol b => .tag 15 ++ .opaqueBytes maxSymbolLength b
  | vec items => .tag 16 ++ writeItems items
  | map entries => .tag 17 ++ writeStorage entries
  | address a => .tag 18 ++ Xdr.write a
  | contractInstance executable storage =>
    .tag 19 ++ Xdr.write executable ++ writeStorage storage
  | ledgerKeyContractInstance => .tag 20
  | ledgerKeyNonce nonce => .tag 21 ++ Xdr.write nonce

def writeItems : Option (List ScVal) → Xdr.Encoding
  | none => .tag 0
  | some items => .tag 1 ++ .length Xdr.maxLength items.length ++ writeList items

def writeList : List ScVal → Xdr.Encoding
  | [] => .empty
  | v :: rest => v.write ++ writeList rest

def writeStorage : Option (List (ScVal × ScVal)) → Xdr.Encoding
  | none => .tag 0
  | some entries => .tag 1 ++ .length Xdr.maxLength entries.length ++ writeEntries entries

def writeEntries : List (ScVal × ScVal) → Xdr.Encoding
  | [] => .empty
  | (k, v) :: rest => k.write ++ v.write ++ writeEntries rest

end

/-! ## Reading -/

def readEntry (read : Xdr.Reader ScVal) : Xdr.Reader (ScVal × ScVal) := do
  let k ← read
  let v ← read
  return (k, v)

def readStorage (read : Xdr.Reader ScVal) : Xdr.Reader (Option (List (ScVal × ScVal))) :=
  .option (.list Xdr.maxLength (readEntry read))

def readWithin : Nat → Xdr.Reader ScVal
  | 0 => throw .io
  | depth + 1 => do
    match ← .tag with
    | 0 => bool <$> Xdr.read
    | 1 => return void
    | 2 => error <$> Xdr.read
    | 3 => u32 <$> Xdr.read
    | 4 => i32 <$> Xdr.read
    | 5 => u64 <$> Xdr.read
    | 6 => i64 <$> Xdr.read
    | 7 => timepoint <$> Xdr.read
    | 8 => duration <$> Xdr.read
    | 9 => return u128 (← Xdr.read) (← Xdr.read)
    | 10 => return i128 (← Xdr.read) (← Xdr.read)
    | 11 => return u256 (← Xdr.read) (← Xdr.read) (← Xdr.read) (← Xdr.read)
    | 12 => return i256 (← Xdr.read) (← Xdr.read) (← Xdr.read) (← Xdr.read)
    | 13 => bytes <$> .opaqueBytes Xdr.maxLength
    | 14 => string <$> .opaqueBytes Xdr.maxLength
    | 15 => symbol <$> .opaqueBytes maxSymbolLength
    | 16 => vec <$> .option (.list Xdr.maxLength (readWithin depth))
    | 17 => map <$> readStorage (readWithin depth)
    | 18 => address <$> Xdr.read
    | 19 => return contractInstance (← Xdr.read) (← readStorage (readWithin depth))
    | 20 => return ledgerKeyContractInstance
    | 21 => ledgerKeyNonce <$> Xdr.read
    | _ => .invalid

/-- Reads a value. -/
def read : Xdr.Reader ScVal := .sized readWithin

instance : Xdr ScVal := ⟨read, write⟩

end ScVal

end SmartWallet
