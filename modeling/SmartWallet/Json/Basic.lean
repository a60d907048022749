import SmartWallet.Bytes.Hex

set_option autoImplicit false

/-! # JSON values

A JSON value keeps its strings and numbers as they are spelled: the *lexeme* of a string is what
stands between its quotes, escapes included, and that of a number is the number itself. So a
value can be read whole without deciding which strings are texts; `Json.text?` decodes a lexeme
where a text is wanted, and `Json.ofText` spells one. An object is the list of its members as
they stand, names repeated or not.

Spelling a text escapes the quote, the backslash and the control characters, and nothing else. -/

namespace SmartWallet

/-- A JSON value with its strings and numbers spelled out. -/
inductive Json where
  | null
  | bool (b : Bool)
  /-- A number, as it is spelled. -/
  | number (lexeme : Bytes)
  /-- A string, as it is spelled between its quotes. -/
  | string (lexeme : Bytes)
  | array (items : List Json)
  /-- An object, with its names as they are spelled between their quotes. -/
  | object (members : List (Bytes × Json))

namespace Json

/-! ## Texts -/

/-- The letter of the short escape of a byte, if it has one. -/
def shortEscape? (x : UInt8) : Option UInt8 :=
  if x = 8 then some 98
  else if x = 9 then some 116
  else if x = 10 then some 110
  else if x = 12 then some 102
  else if x = 13 then some 114
  else if x = 34 then some 34
  else if x = 92 then some 92
  else none

/-- The spelling of a byte of a text. -/
def escapeByte (x : UInt8) : Bytes :=
  match shortEscape? x with
  | some letter => [92, letter]
  | none =>
    if x.toNat < 32 then
      [92, 117, 48, 48] ++ (Hex.byteDigits x).map fun c => UInt8.ofNat c.toNat
    else [x]

/-- The lexeme of a text. -/
def escape (text : String) : Bytes := (Bytes.ofString text).flatMap escapeByte

/-- What the letter of a short escape stands for. -/
def shortEscapeValue? (letter : UInt8) : Option UInt8 :=
  if letter = 34 then some 34
  else if letter = 92 then some 92
  else if letter = 47 then some 47
  else if letter = 98 then some 8
  else if letter = 102 then some 12
  else if letter = 110 then some 10
  else if letter = 114 then some 13
  else if letter = 116 then some 9
  else none

/-- The number that four hexadecimal digits write. -/
def hex4? (w x y z : UInt8) : Option Nat := do
  let w ← Hex.digitValue? w
  let x ← Hex.digitValue? x
  let y ← Hex.digitValue? y
  let z ← Hex.digitValue? z
  return w * 4096 + x * 256 + y * 16 + z

/-- The UTF-8 bytes of a code point that is a character. -/
def codePoint (v : Nat) : Bytes := String.utf8EncodeChar (Char.ofNat v)

/-- Resolves the escapes of a lexeme. A code point above `U+FFFF` is spelled as two halves that must
stand together; a half alone is no character. -/
def unescape : Bytes → Option Bytes
  | 92 :: 117 :: a :: b :: c :: d :: rest => do
    let v ← hex4? a b c d
    if 0xdc00 ≤ v ∧ v ≤ 0xdfff then none
    else if 0xd800 ≤ v ∧ v ≤ 0xdbff then
      match rest with
      | 92 :: 117 :: e :: f :: g :: h :: rest => do
        let w ← hex4? e f g h
        if 0xdc00 ≤ w ∧ w ≤ 0xdfff then
          return codePoint (0x10000 + (v - 0xd800) * 0x400 + (w - 0xdc00)) ++ (← unescape rest)
        else none
      | _ => none
    else return codePoint v ++ (← unescape rest)
  | 92 :: letter :: rest => do return (← shortEscapeValue? letter) :: (← unescape rest)
  | 92 :: [] => none
  | x :: rest => do return x :: (← unescape rest)
  | [] => some []

/-- The text that a lexeme spells, if its escapes are characters and its bytes are UTF-8. -/
def unspell? (lexeme : Bytes) : Option String := (unescape lexeme).bind Bytes.toString?

def text? : Json → Option String
  | string lexeme => unspell? lexeme
  | _ => none

def ofText (text : String) : Json := string (escape text)

/-! ## Numbers -/

/-- The number that decimal digits write; at least one is needed. -/
def digits? (digits : Bytes) : Option Nat :=
  if digits ≠ [] ∧ digits.all fun x => 48 ≤ x.toNat ∧ x.toNat ≤ 57 then
    some (digits.foldl (fun v x => v * 10 + (x.toNat - 48)) 0)
  else none

/-- The integer that a number spells without fraction or exponent; `-0` is none. -/
def int? : Json → Option Int
  | number (45 :: digits) => do
    let v ← digits? digits
    if v = 0 then none else some (-(v : Int))
  | number digits => do return ((← digits? digits) : Int)
  | _ => none

/-- The decimal digits of a number below `10 ^ k`, the least significant last, without zeros in
front. -/
def decimalDigits : Nat → Nat → Bytes
  | 0, _ => []
  | k + 1, v => if v < 10 then [UInt8.ofNat (48 + v)] else
      decimalDigits k (v / 10) ++ [UInt8.ofNat (48 + v % 10)]

/-- An integer as a number. -/
def ofInt (v : Int) : Json :=
  let digits := decimalDigits (v.natAbs + 1) v.natAbs
  number (if v < 0 then 45 :: digits else digits)

/-! ## Writing -/

mutual

/-- The compact spelling of a value. -/
def render : Json → Bytes
  | null => [110, 117, 108, 108]
  | bool true => [116, 114, 117, 101]
  | bool false => [102, 97, 108, 115, 101]
  | number lexeme => lexeme
  | string lexeme => 34 :: lexeme ++ [34]
  | array items => 91 :: renderItems items ++ [93]
  | object members => 123 :: renderMembers members ++ [125]

/-- The items of an array, with commas between. -/
def renderItems : List Json → Bytes
  | [] => []
  | [v] => render v
  | v :: w :: rest => render v ++ 44 :: renderItems (w :: rest)

/-- The members of an object, with commas between. -/
def renderMembers : List (Bytes × Json) → Bytes
  | [] => []
  | [(name, v)] => 34 :: name ++ 34 :: 58 :: render v
  | (name, v) :: w :: rest => 34 :: name ++ 34 :: 58 :: render v ++ 44 :: renderMembers (w :: rest)

end

end Json

end SmartWallet
