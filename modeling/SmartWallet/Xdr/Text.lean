import SmartWallet.Text.Base64
import SmartWallet.Xdr.Basic

set_option autoImplicit false

/-! # Binary forms as text

A binary form travels as base 64 text. The text is decoded while the value is read, so a fault in
the text is only met by a reader that gets that far: a problem with an earlier field is reported
first. After the value nothing may follow, neither bytes nor a fault. -/

namespace SmartWallet.Xdr

/-- The text of a value. -/
def encodeText {α : Type} [Xdr α] (x : α) : Except Error String := do
  return String.ofList (Base64.encodePadded Base64.standard (← encode x))

/-- The value that a text writes. -/
def decodeText {α : Type} [Xdr α] (text : String) : Except Error α := do
  let (b, sound) := Base64.decodeStream Base64.standard text.toList
  let (x, rest) ← read b
  if rest ≠ [] then throw .invalid
  if !sound then throw .io
  return x

end SmartWallet.Xdr
