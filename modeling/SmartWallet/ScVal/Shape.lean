import SmartWallet.Authorization.Error
import SmartWallet.ScVal.Order

set_option autoImplicit false

/-! # Shapes of contract values

Contracts write their types as values of fixed shapes: a *variant* is a vector that starts
with the symbol of its name, a *record* is a map from the symbols of its field names, sorted
as the host keeps maps. The `of…` functions build these shapes; `symbol`, `variant` and
`record` also check that names fit in a symbol. The `as…` functions take shapes apart and name
in their report what was wanted.

In a record every field is found again: `field` answers the first pair with the name, and sorting is
stable, so that is the first pair that was given. -/

namespace SmartWallet.ScVal

/-! ## Building -/

def ofName (name : String) : ScVal := .symbol (Bytes.ofString name)

/-- A vector. -/
def ofList (items : List ScVal) : ScVal := .vec (some items)

def ofVariant (name : String) (fields : List ScVal) : ScVal := ofList (ofName name :: fields)

/-- Sorts pairs by key; pairs with equal keys keep their order. -/
def sortEntries (entries : List ScMapEntry) : List ScMapEntry :=
  entries.mergeSort fun a b => (compare a.1 b.1).isLE

/-- A map, sorted by key. -/
def ofMap (entries : List ScMapEntry) : ScVal := .map (some (sortEntries entries))

/-- A record of named fields. -/
def ofRecord (fields : List (String × ScVal)) : ScVal :=
  ofMap (fields.map fun (name, v) => (ofName name, v))

/-- The symbol of a name of at most 32 bytes. -/
def symbolOfName (name : String) : Except AuthError ScVal :=
  if (Bytes.ofString name).length ≤ maxSymbolLength then .ok (ofName name)
  else .error (.xdr .lengthExceedsMax)

/-- A variant whose name fits in a symbol. -/
def variantOfName (name : String) (fields : List ScVal) : Except AuthError ScVal := do
  return ofList ((← symbolOfName name) :: fields)

/-- A record whose names fit in symbols. -/
def recordOfNames (fields : List (String × ScVal)) : Except AuthError ScVal := do
  return ofMap (← fields.mapM fun (name, v) => do return (← symbolOfName name, v))

/-! ## Taking apart -/

/-- The items of a vector. -/
def asVec (what : String) : ScVal → Except AuthError (List ScVal)
  | vec (some items) => .ok items
  | _ => .error (.invalidScVal what)

/-- The text of a symbol. -/
def asSymbol (what : String) : ScVal → Except AuthError Bytes
  | symbol name => .ok name
  | _ => .error (.invalidScVal what)

def asBytes (what : String) : ScVal → Except AuthError Bytes
  | bytes b => .ok b
  | _ => .error (.invalidScVal what)

/-- A byte string of a known length. -/
def asFixedBytes (n : Nat) (what : String) (v : ScVal) : Except AuthError (FixedBytes n) := do
  AuthError.ofOption (.invalidScVal what) (FixedBytes.ofList? n (← v.asBytes what))

/-- The pairs of a map. -/
def asMap (what : String) : ScVal → Except AuthError (List ScMapEntry)
  | map (some entries) => .ok entries
  | _ => .error (.invalidScVal what)

/-- The name and the fields of a variant. -/
def asVariant (what : String) (v : ScVal) : Except AuthError (Bytes × List ScVal) := do
  match ← v.asVec what with
  | [] => throw (.invalidScVal what)
  | tag :: fields => return (← tag.asSymbol what, fields)

def asContract (what : String) : ScVal → Except AuthError ContractAddress
  | address (.contract c) => .ok c
  | _ => .error (.invalidScVal what)

/-- The value of the first pair whose key is the symbol of a name. -/
def field (entries : List ScMapEntry) (name what : String) : Except AuthError ScVal :=
  AuthError.ofOption (.invalidScVal what) (entries.lookup (ofName name))

end SmartWallet.ScVal
