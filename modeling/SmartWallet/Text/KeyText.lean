import SmartWallet.Bytes.Hex
import SmartWallet.Text.Strkey
import SmartWallet.Ecdsa
import SmartWallet.Ed25519

set_option autoImplicit false

/-! # Textual keys and signatures

A key or signature is written as the name of its curve, a colon and its bytes in hexadecimal.
Reading also takes the digits alone, either case of the digits and of the name, and for an Ed25519
key its account strkey. The faults are looked for in a fixed order: first the name before the first
colon, then the length of what follows, then its digits. -/

namespace SmartWallet

/-- The curves that keys and signatures name. -/
inductive CurveType where
  | ed25519
  | p256
deriving DecidableEq, Repr

/-- The name in front of the colon. -/
def CurveType.name : CurveType → String
  | ed25519 => "ed25519"
  | p256 => "p256"

namespace KeyText

/-- Why a text is refused. -/
inductive ParseError where
  /-- The name before the colon is not that of the curve. -/
  | wrongCurveType
  /-- The number of digits is not the right one. -/
  | invalidLength
  /-- A byte of the text is no hexadecimal digit. -/
  | hex (cause : Hex.BadDigit)
  /-- The text starts like a strkey and is none. -/
  | strkey
deriving DecidableEq, Repr

/-! ## Naming a byte in a report -/

/-- A hexadecimal number without zeros in front. -/
def escapeDigits (x : UInt8) : List Char :=
  if x.toNat < 16 then [Hex.digit x.toNat] else Hex.byteDigits x

/-- Whether a byte, read as a code point, is a control or format character or a blank other than
the space. -/
def isInvisible (x : UInt8) : Bool :=
  x.toNat < 32 ∨ (127 ≤ x.toNat ∧ x.toNat ≤ 160) ∨ x.toNat = 173

/-- A byte as a quoted character: the usual escapes, the code point in braces for what is invisible,
and else the character itself. -/
def quote (x : UInt8) : String :=
  let body :=
    if x = 0 then "\\0"
    else if x = 9 then "\\t"
    else if x = 10 then "\\n"
    else if x = 13 then "\\r"
    else if x = 39 then "\\'"
    else if x = 92 then "\\\\"
    else if isInvisible x then "\\u\x7b" ++ String.ofList (escapeDigits x) ++ "\x7d"
    else String.singleton (Char.ofNat x.toNat)
  "'" ++ body ++ "'"

/-- The report of a refused text. -/
def ParseError.message : ParseError → String
  | wrongCurveType => "wrong curve type"
  | invalidLength => "invalid length"
  | hex cause => s!"hex: Invalid character {quote cause.found} at position {cause.position}"
  | strkey => "strkey: the strkey is invalid"

/-! ## Writing and reading -/

/-- The name, a colon and the digits. -/
def render (curve : CurveType) (b : Bytes) : String := curve.name ++ ":" ++ Hex.encode b

/-- The part before the first colon, if there is one, and the rest. -/
def splitName (text : List Char) : Option (List Char) × List Char :=
  match text.dropWhile (· ≠ ':') with
  | [] => (none, text)
  | _ :: rest => (some (text.takeWhile (· ≠ ':')), rest)

/-- Reads `n` bytes of the given curve. -/
def parse (curve : CurveType) (n : Nat) (text : String) : Except ParseError (FixedBytes n) :=
  let (name, digits) := splitName text.toList
  if name.any fun w => w.map Char.toLower ≠ curve.name.toList then .error .wrongCurveType
  else
    let digits := Bytes.ofString (String.ofList digits)
    if h : digits.length = 2 * n then
      match hd : Hex.decode digits with
      | .ok b => .ok ⟨b, by rw [Hex.length_of_decodeFrom hd]; omega⟩
      | .error e => .error (.hex e)
    else .error .invalidLength

end KeyText

namespace Ecdsa

def PublicKey.text (k : PublicKey) : String := KeyText.render .p256 k.bytes.toList

/-- Reads the text of a key; the point is not checked. -/
def PublicKey.parse (text : String) : Except KeyText.ParseError PublicKey :=
  PublicKey.mk <$> KeyText.parse .p256 65 text

def Signature.text (x : Signature) : String := KeyText.render .p256 x.bytes.toList

/-- Reads the text of a signature; its numbers are not checked. -/
def Signature.parse (text : String) : Except KeyText.ParseError Signature :=
  Signature.mk <$> KeyText.parse .p256 64 text

end Ecdsa

namespace Ed25519

def PublicKey.text (k : PublicKey) : String := KeyText.render .ed25519 k.bytes.toList

def PublicKey.strkey (k : PublicKey) : String := Strkey.encode .account k.bytes

/-- Reads the text of a key, or its account strkey, which is known by its first letter. -/
def PublicKey.parse (text : String) : Except KeyText.ParseError PublicKey :=
  if text.toList.head? = some 'G' then
    match Strkey.decode? .account text with
    | some b => .ok ⟨b⟩
    | none => .error .strkey
  else PublicKey.mk <$> KeyText.parse .ed25519 32 text

/-- Reads the secret strkey of a signing key. -/
def Keypair.ofSecret (text : String) : Except KeyText.ParseError Keypair :=
  match Strkey.decode? .seed text with
  | some b => .ok ⟨b⟩
  | none => .error .strkey

/-- A signing key shown without its secret. -/
def Keypair.text (k : Keypair) : String := "Ed25519Keypair(" ++ k.publicKey.text ++ ")"

end Ed25519

end SmartWallet
