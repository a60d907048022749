import SmartWallet.Bytes

set_option autoImplicit false

/-! # Base 64

Three bytes are written as four characters of six bits each; one or two bytes left at the end as two
or three characters, whose spare low bits are zero, and optionally `=` up to the fourth character.
There are two alphabets, which differ in the characters for 62 and 63.

Reading goes by groups of four characters. `decode` asks that every group but the last is full;
`decodeStream` takes whatever groups it meets, one after the other, and stops at the first that is
no group: it answers the bytes before that point and whether the whole text was read. -/

namespace SmartWallet.Base64

/-- An alphabet: letters, digits, and two more characters. -/
structure Alphabet where
  /-- The character for 62. -/
  char62 : Char
  /-- The character for 63. -/
  char63 : Char

/-- The alphabet that is safe in URLs. -/
def urlSafe : Alphabet := ⟨'-', '_'⟩

/-- The alphabet of ordinary base 64. -/
def standard : Alphabet := ⟨'+', '/'⟩

namespace Alphabet

/-- The character of a value below 64. -/
def char (a : Alphabet) (v : Nat) : Char :=
  if v < 26 then Char.ofNat (65 + v)
  else if v < 52 then Char.ofNat (71 + v)
  else if v < 62 then Char.ofNat (v - 4)
  else if v = 62 then a.char62
  else a.char63

/-- The value of a character. -/
def value? (a : Alphabet) (c : Char) : Option Nat :=
  let v := c.toNat
  if 65 ≤ v ∧ v ≤ 90 then some (v - 65)
  else if 97 ≤ v ∧ v ≤ 122 then some (v - 71)
  else if 48 ≤ v ∧ v ≤ 57 then some (v + 4)
  else if c = a.char62 then some 62
  else if c = a.char63 then some 63
  else none

end Alphabet

/-! ## Writing -/

/-- The characters of a byte string, without padding. -/
def encode (a : Alphabet) : Bytes → List Char
  | x :: y :: z :: rest =>
    let v := x.toNat * 65536 + y.toNat * 256 + z.toNat
    a.char (v / 262144) :: a.char (v / 4096 % 64) :: a.char (v / 64 % 64) :: a.char (v % 64)
      :: encode a rest
  | [x, y] =>
    let v := x.toNat * 256 + y.toNat
    [a.char (v / 1024), a.char (v / 16 % 64), a.char (v % 16 * 4)]
  | [x] => [a.char (x.toNat / 4), a.char (x.toNat % 4 * 16)]
  | [] => []

/-- The characters of a byte string, padded to a multiple of four. -/
def encodePadded (a : Alphabet) (b : Bytes) : List Char :=
  encode a b ++ List.replicate ((3 - b.length % 3) % 3) '='

/-! ## Reading -/

/-- The bytes of four six-bit values. -/
def quantum (v w x y : Nat) : Bytes :=
  let t := v * 262144 + w * 4096 + x * 64 + y
  [UInt8.ofNat (t / 65536), UInt8.ofNat (t / 256), UInt8.ofNat t]

/-- The bytes of a group without its padding: four characters, or two or three whose spare bits are
zero. -/
def decodeUnpadded (a : Alphabet) (group : List Char) : Option Bytes := do
  match ← group.mapM a.value? with
  | [v, w, x, y] => some (quantum v w x y)
  | [v, w, x] => if x % 4 = 0 then some ((quantum v w x 0).take 2) else none
  | [v, w] => if w % 16 = 0 then some ((quantum v w 0 0).take 1) else none
  | _ => none

/-- The bytes of a group of at most four characters, with the padding it may have. -/
def decodeGroup (a : Alphabet) (group : List Char) : Option Bytes :=
  decodeUnpadded a (group.reverse.dropWhile (· = '=')).reverse

/-- The bytes of a text whose last group alone may be short or padded. -/
def decode (a : Alphabet) : List Char → Option Bytes
  | [] => some []
  | v :: w :: x :: y :: z :: rest => do
    let b ← decodeUnpadded a [v, w, x, y]
    return b ++ (← decode a (z :: rest))
  | group => decodeGroup a group

/-- The bytes of a text up to its first fault, and whether there is none. -/
def decodeStream (a : Alphabet) : List Char → Bytes × Bool
  | [] => ([], true)
  | v :: w :: x :: y :: rest =>
    match decodeGroup a [v, w, x, y] with
    | none => ([], false)
    | some b =>
      let (c, sound) := decodeStream a rest
      (b ++ c, sound)
  | group =>
    match decodeGroup a group with
    | none => ([], false)
    | some b => (b, true)

end SmartWallet.Base64

namespace SmartWallet.Base64Url

/-- The unpadded base64url text of a byte string. -/
def encode (b : Bytes) : String := String.ofList (Base64.encode Base64.urlSafe b)

/-- The bytes of a base64url text; padding may be left out. -/
def decode? (text : String) : Option Bytes := Base64.decode Base64.urlSafe text.toList

end SmartWallet.Base64Url
