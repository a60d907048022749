import SmartWallet.Json.Reader
import SmartWallet.Text.Base64

set_option autoImplicit false

/-! # Records in JSON

A record is an object with known names. Members with other names are passed over, a known name may
stand only once, and every name has to be a text. A record may also be written as the array of its
fields in order, in which fields at the end may be missing but none may be added. A field that is
missing is an error, or a default, or `none`; only in the last case may it also be `null`. -/

namespace SmartWallet.Json

/-- The fields of a record that are present, by name. -/
abbrev Fields := List (String × Json)

/-- The fields of a record whose names are given in order. -/
def fields? (names : List String) : Json → Option Fields
  | object members => do
    let spelled ← members.mapM fun (name, v) => (·, v) <$> unspell? name
    let known := spelled.filter fun (name, _) => names.contains name
    if (known.map Prod.fst).Nodup then some known else none
  | array items => if items.length ≤ names.length then some (names.zip items) else none
  | _ => none

namespace Fields

variable {α : Type}

/-- A field that has to be present. -/
def required (f : Fields) (name : String) (read : Json → Option α) : Option α :=
  (f.lookup name).bind read

def withDefault (f : Fields) (name : String) (read : Json → Option α) (default : α) : Option α :=
  match f.lookup name with
  | none => some default
  | some v => read v

/-- A field that may be missing or `null`. -/
def optional (f : Fields) (name : String) (read : Json → Option α) : Option (Option α) :=
  match f.lookup name with
  | none => some none
  | some null => some none
  | some v => some <$> read v

end Fields

/-- A record with the given fields. -/
def ofFields (fields : Fields) : Json := object (fields.map fun (name, v) => (escape name, v))

/-- A field that is written only if it has a value. -/
def optionalField {α : Type} (name : String) (write : α → Json) : Option α → Fields
  | none => []
  | some x => [(name, write x)]

/-- A list that is written only if it has items. -/
def listField {α : Type} (name : String) (write : α → Json) (items : List α) : Fields :=
  if items.isEmpty then [] else [(name, array (items.map write))]

/-! ## Fields of common kinds -/

/-- The text of a truth value. -/
def bool? : Json → Option Bool
  | bool b => some b
  | _ => none

/-- The values of an array. -/
def list? {α : Type} (read : Json → Option α) : Json → Option (List α)
  | array items => items.mapM read
  | _ => none

/-- The bytes that a base64url text writes. -/
def bytes? (v : Json) : Option Bytes := v.text?.bind Base64Url.decode?

def ofBytes (b : Bytes) : Json := ofText (Base64Url.encode b)

/-- An integer of 64 bits. -/
def int64? (v : Json) : Option Int64 := do
  let i ← v.int?
  if -0x8000000000000000 ≤ i ∧ i < 0x8000000000000000 then some (Int64.ofInt i) else none

/-- A natural number of 32 bits. -/
def uint32? (v : Json) : Option UInt32 := do
  let i ← v.int?
  if 0 ≤ i ∧ i < 0x100000000 then some (UInt32.ofNat i.toNat) else none

/-- A value out of a finite list, written as its name or as an object
with that one name and `null`. -/
def oneOf? {α : Type} (names : List (String × α)) : Json → Option α
  | string lexeme => (unspell? lexeme).bind fun name => names.lookup name
  | object [(name, null)] => (unspell? name).bind fun name => names.lookup name
  | _ => none

end SmartWallet.Json
