import SmartWallet.Json.Reader
import SmartWallet.Proofs.Bytes.Hex

set_option autoImplicit false

/-! # Texts in JSON

A text is spelled byte by byte: a byte stands for itself, or is written as a short escape, or, among
the control characters, by its code. `unspell?_escape` says that the lexeme of a text spells that
text, and `scanString_escape` that a reader finds its end. Both go over the bytes of the text, one
step for each of the three ways to write a byte. -/

namespace SmartWallet

namespace Json

/-! ## One byte -/

/-- How a byte is written. -/
inductive Spelling (x : UInt8) : Bytes → Prop
  | short {letter : UInt8} : shortEscapeValue? letter = some x → letter ≠ 117 →
      Spelling x [92, letter]
  | code {c d : UInt8} : hex4? 48 48 c d = some x.toNat → x.toNat < 32 →
      Spelling x [92, 117, 48, 48, c, d]
  | plain : x ≠ 34 → x ≠ 92 → 32 ≤ x.toNat → Spelling x [x]

theorem shortEscape?_some {x letter : UInt8} (h : shortEscape? x = some letter) :
    shortEscapeValue? letter = some x ∧ letter ≠ 117 := by
  unfold shortEscape? at h
  -- the bytes with a short escape are seven, and each is read back from its letter
  repeat' split at h
  all_goals first
    | (cases h; subst_vars; decide)
    | cases h

theorem spelling_escapeByte (x : UInt8) : Spelling x (escapeByte x) := by
  have hx := x.toNat_lt
  unfold escapeByte
  cases hs : shortEscape? x with
  | some letter =>
      obtain ⟨hvalue, hne⟩ := shortEscape?_some hs
      exact .short hvalue hne
  | none =>
      by_cases hlow : x.toNat < 32
      · rw [if_pos hlow]
        refine .code ?_ hlow
        have hhi : Hex.digitValue? (UInt8.ofNat (Hex.digit (x.toNat / 16)).toNat) = _ :=
          Hex.digitValue?_digit (x.toNat / 16) (by omega)
        have hlo : Hex.digitValue? (UInt8.ofNat (Hex.digit (x.toNat % 16)).toNat) = _ :=
          Hex.digitValue?_digit (x.toNat % 16) (by omega)
        have h0 : Hex.digitValue? 48 = some 0 := rfl
        simp only [hex4?, h0, hhi, hlo, bind, Option.bind, pure]
        congr 1
        omega
      · rw [if_neg hlow]
        refine .plain ?_ ?_ (by omega)
        · rintro rfl
          cases hs
        · rintro rfl
          cases hs

/-! ## Reading a text back -/

theorem codePoint_of_lt (x : UInt8) (h : x.toNat < 32) : codePoint x.toNat = [x] := by
  have hall : ∀ v < 32, codePoint v = [UInt8.ofNat v] := by decide
  rw [hall _ h, UInt8.ofNat_toNat]

theorem unescape_spelling {x : UInt8} {b : Bytes} (h : Spelling x b) (rest : Bytes) :
    unescape (b ++ rest) = do return x :: (← unescape rest) := by
  cases h with
  | @short letter hvalue hne =>
      show unescape (92 :: letter :: rest) = _
      -- the letter does not start a code, so the equation for short escapes applies
      rw [unescape.eq_2 letter rest fun _ _ _ _ _ h _ => hne h, hvalue]
      rfl
  | @code c d hcode hlow =>
      show unescape (92 :: 117 :: 48 :: 48 :: c :: d :: rest) = _
      rw [unescape, hcode]
      -- the code of a control character is no half of a surrogate pair
      show (if 0xdc00 ≤ x.toNat ∧ x.toNat ≤ 0xdfff then none else _) = _
      rw [if_neg (by omega), if_neg (by omega), codePoint_of_lt x hlow]
      rfl
  | plain h34 h92 hle =>
      show unescape (x :: rest) = _
      rw [unescape.eq_4 x rest (fun _ _ _ _ _ h _ => h92 h) (fun _ _ h _ => h92 h)
        (fun h _ => h92 h)]

theorem unescape_flatMap (b : Bytes) : unescape (b.flatMap escapeByte) = some b := by
  induction b with
  | nil => rfl
  | cons x rest ih =>
      rw [List.flatMap_cons, unescape_spelling (spelling_escapeByte x), ih]
      rfl

/-- The lexeme of a text spells the text. -/
@[simp] theorem unspell?_escape (text : String) : unspell? (escape text) = some text := by
  unfold unspell? escape
  rw [unescape_flatMap]
  exact Bytes.toString?_ofString text

@[simp] theorem text?_ofText (text : String) : (ofText text).text? = some text :=
  unspell?_escape text

/-! ## Finding the end of a text -/

theorem scanString_spelling {x : UInt8} {b : Bytes} (h : Spelling x b) (rest : Bytes) :
    scanString (b ++ rest) = (scanString rest).map fun (l, r) => (b ++ l, r) := by
  cases h with
  | @short letter hvalue hne =>
      show scanString (92 :: letter :: rest) = _
      rw [scanString.eq_4 letter rest fun _ _ _ _ _ h _ => hne h, hvalue]
      cases scanString rest <;> rfl
  | @code c d hcode hlow =>
      show scanString (92 :: 117 :: 48 :: 48 :: c :: d :: rest) = _
      rw [scanString, hcode]
      cases scanString rest <;> rfl
  | plain h34 h92 hle =>
      show scanString (x :: rest) = _
      rw [scanString.eq_5 x rest (fun h => h34 h) (fun _ _ _ _ _ h _ => h92 h)
        (fun _ _ h _ => h92 h), if_neg (by rintro (h | h); omega; exact h92 h)]
      cases scanString rest <;> rfl

/-- A reader finds the quote behind the lexeme of a text. -/
theorem scanString_escape (text : String) (rest : Bytes) :
    scanString (escape text ++ 34 :: rest) = some (escape text, rest) := by
  unfold escape
  generalize Bytes.ofString text = b
  induction b with
  | nil => rfl
  | cons x b ih =>
      rw [List.flatMap_cons, List.append_assoc, scanString_spelling (spelling_escapeByte x), ih]
      rfl

end Json

end SmartWallet
