import SmartWallet.Json.Basic

set_option autoImplicit false

/-! # Reading JSON

`Json.parse` takes exactly the texts of the JSON grammar: one value, with blanks around any token,
and nothing after it. Strings are only scanned: every backslash starts a known escape and no control
character stands bare; what their bytes mean is left to whoever wants a text. The depth of the value
is bounded by the length of the text, which is the fuel of the mutual recursion. -/

namespace SmartWallet.Json

/-- The blanks of the grammar: space, tab, line feed and carriage return. -/
def isBlank (x : UInt8) : Bool := x = 32 || x = 9 || x = 10 || x = 13

/-- The text from its first token on. -/
def skipBlanks (text : Bytes) : Bytes := text.dropWhile isBlank

/-- Whether a byte is a decimal digit. -/
def isDigit (x : UInt8) : Bool := 48 ≤ x.toNat && x.toNat ≤ 57

/-- Splits a text after its leading digits. -/
def scanDigits (text : Bytes) : Bytes × Bytes := (text.takeWhile isDigit, text.dropWhile isDigit)

/-! ## Tokens -/

/-- Splits a text after the quote that ends a string, whose lexeme comes first. -/
def scanString : Bytes → Option (Bytes × Bytes)
  | [] => none
  | 34 :: rest => some ([], rest)
  | 92 :: 117 :: a :: b :: c :: d :: rest => do
    let _ ← hex4? a b c d
    let (lexeme, rest) ← scanString rest
    return (92 :: 117 :: a :: b :: c :: d :: lexeme, rest)
  | 92 :: letter :: rest => do
    let _ ← shortEscapeValue? letter
    let (lexeme, rest) ← scanString rest
    return (92 :: letter :: lexeme, rest)
  | x :: rest =>
    if x.toNat < 32 ∨ x = 92 then none
    else do
      let (lexeme, rest) ← scanString rest
      return (x :: lexeme, rest)

/-- The digits in front of the point: a zero alone, or digits that do not start with one. -/
def scanWhole : Bytes → Option (Bytes × Bytes)
  | 48 :: rest => some ([48], rest)
  | text =>
    let (digits, rest) := scanDigits text
    if digits = [] then none else some (digits, rest)

/-- The point and the digits after it, if there is a point. -/
def scanFraction : Bytes → Option (Bytes × Bytes)
  | 46 :: rest =>
    let (digits, rest) := scanDigits rest
    if digits = [] then none else some (46 :: digits, rest)
  | text => some ([], text)

/-- The sign of an exponent, if there is one. -/
def scanSign : Bytes → Bytes × Bytes
  | 43 :: rest => ([43], rest)
  | 45 :: rest => ([45], rest)
  | text => ([], text)

/-- The exponent, if there is one. -/
def scanExponent : Bytes → Option (Bytes × Bytes)
  | x :: rest =>
    if x = 101 ∨ x = 69 then
      let (sign, rest) := scanSign rest
      let (digits, rest) := scanDigits rest
      if digits = [] then none else some (x :: sign ++ digits, rest)
    else some ([], x :: rest)
  | [] => some ([], [])

/-- The minus in front of a number, if there is one. -/
def scanMinus : Bytes → Bytes × Bytes
  | 45 :: rest => ([45], rest)
  | text => ([], text)

/-- Splits a text after a number, which comes first. -/
def scanNumber (text : Bytes) : Option (Bytes × Bytes) := do
  let (sign, text) := scanMinus text
  let (whole, text) ← scanWhole text
  let (fraction, text) ← scanFraction text
  let (exponent, text) ← scanExponent text
  return (sign ++ whole ++ fraction ++ exponent, text)

/-! ## Values -/

mutual

/-- Reads a value and answers what follows it. -/
def readValue : Nat → Bytes → Option (Json × Bytes)
  | 0, _ => none
  | fuel + 1, text =>
    match skipBlanks text with
    | 110 :: 117 :: 108 :: 108 :: rest => some (null, rest)
    | 116 :: 114 :: 117 :: 101 :: rest => some (bool true, rest)
    | 102 :: 97 :: 108 :: 115 :: 101 :: rest => some (bool false, rest)
    | 34 :: rest => do
      let (lexeme, rest) ← scanString rest
      return (string lexeme, rest)
    | 91 :: rest =>
      match skipBlanks rest with
      | 93 :: rest => some (array [], rest)
      | rest => do
        let (items, rest) ← readItems fuel rest
        return (array items, rest)
    | 123 :: rest =>
      match skipBlanks rest with
      | 125 :: rest => some (object [], rest)
      | rest => do
        let (members, rest) ← readMembers fuel rest
        return (object members, rest)
    | text => do
      let (lexeme, rest) ← scanNumber text
      return (number lexeme, rest)

/-- Reads the items of an array up to its closing bracket. -/
def readItems : Nat → Bytes → Option (List Json × Bytes)
  | 0, _ => none
  | fuel + 1, text => do
    let (v, rest) ← readValue fuel text
    match skipBlanks rest with
    | 93 :: rest => return ([v], rest)
    | 44 :: rest => do
      let (items, rest) ← readItems fuel rest
      return (v :: items, rest)
    | _ => none

/-- Reads the members of an object up to its closing brace. -/
def readMembers : Nat → Bytes → Option (List (Bytes × Json) × Bytes)
  | 0, _ => none
  | fuel + 1, text =>
    match skipBlanks text with
    | 34 :: rest => do
      let (name, rest) ← scanString rest
      match skipBlanks rest with
      | 58 :: rest => do
        let (v, rest) ← readValue fuel rest
        match skipBlanks rest with
        | 125 :: rest => return ([(name, v)], rest)
        | 44 :: rest => do
          let (members, rest) ← readMembers fuel rest
          return ((name, v) :: members, rest)
        | _ => none
      | _ => none
    | _ => none

end

/-- The value that a text spells. -/
def parse (text : Bytes) : Option Json := do
  let (v, rest) ← readValue (2 * text.length + 2) text
  if skipBlanks rest = [] then some v else none

end SmartWallet.Json
