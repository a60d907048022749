import Mathlib.Data.List.TakeWhile
import SmartWallet.Proofs.Bytes.Hex
import SmartWallet.Proofs.Text.Strkey
import SmartWallet.Text.KeyText

set_option autoImplicit false

/-! # The grammar of textual keys and signatures

`KeyText.Reads` says what a text of a key or signature is read as, with one rule for each of its
forms and for each fault. The rules exclude each other, and what is read is what they say, of any
text (`KeyText.parse_eq_iff`): the first colon ends the name, whatever follows it; the length is
that of the bytes, however many characters they are; and of several faults the one is reported that
comes first in the order name, length, digits.

So it is a matter of the rules alone that a text is read back, and that the text of one curve is
refused by the other (`KeyText.parse_exact`). An account strkey is no such text: it starts with a
letter that is neither a digit nor starts a name, by which it is known. -/

namespace SmartWallet

namespace KeyText

/-! ## Rules -/

/-- The bytes of characters. -/
def bytesOf (chars : List Char) : Bytes := Bytes.ofString (String.ofList chars)

/-- What `n` bytes in hexadecimal are read as: their number must be right, and all must be digits.
Then bytes are read that are written so, up to the case of the letters. -/
inductive DigitsRead (n : Nat) (digits : List Char) : Except ParseError (FixedBytes n) → Prop
  | length : (bytesOf digits).length ≠ 2 * n → DigitsRead n digits (.error .invalidLength)
  | digit {e : Hex.BadDigit} : (bytesOf digits).length = 2 * n → Hex.FirstBad (bytesOf digits) e →
      DigitsRead n digits (.error (.hex e))
  | ok {b : FixedBytes n} : (bytesOf digits).length = 2 * n →
      (∀ x ∈ bytesOf digits, Hex.IsDigit x) →
      (Hex.encode b.toList).toList = digits.map Char.toLower → DigitsRead n digits (.ok b)

/-- What a text is read as: the name in front of the first colon must be that of the curve, up to
the case of the letters, and the rest are digits; without a colon all are. -/
inductive Reads (curve : CurveType) (n : Nat) : List Char → Except ParseError (FixedBytes n) → Prop
  | wrongCurve {name digits : List Char} : ':' ∉ name → name.map Char.toLower ≠ curve.name.toList →
      Reads curve n (name ++ ':' :: digits) (.error .wrongCurveType)
  | named {name digits : List Char} {r : Except ParseError (FixedBytes n)} : ':' ∉ name →
      name.map Char.toLower = curve.name.toList → DigitsRead n digits r →
      Reads curve n (name ++ ':' :: digits) r
  | bare {digits : List Char} {r : Except ParseError (FixedBytes n)} : ':' ∉ digits →
      DigitsRead n digits r → Reads curve n digits r

variable {curve other : CurveType} {n : Nat} {text : String} {name digits : List Char}
  {r r' : Except ParseError (FixedBytes n)} {b : FixedBytes n}

/-! ## Digits -/

theorem map_toLower_of_isDigit (h : ∀ x ∈ bytesOf digits, Hex.IsDigit x) :
    digits.map Char.toLower = (bytesOf digits).map Hex.lower := by
  have hchars : digits = (bytesOf digits).map UInt8.toChar :=
    Bytes.eq_map_toChar rfl fun x hx => Hex.toNat_lt_of_isDigit (h x hx)
  rw [hchars, List.map_map, ← hchars]
  rfl

theorem DigitsRead.unique (h : DigitsRead n digits r) (h' : DigitsRead n digits r') : r = r' := by
  cases h with
  | length hno =>
      cases h' with
      | length => rfl
      | digit hyes => exact absurd hyes hno
      | ok hyes => exact absurd hyes hno
  | digit hyes hbad =>
      cases h' with
      | length hno => exact absurd hyes hno
      | digit _ hbad' => rw [hbad.unique hbad']
      | ok _ hall => exact absurd (hall _ (List.mem_of_getElem? hbad.getElem?)) hbad.found
  | ok hyes hall hb =>
      cases h' with
      | length hno => exact absurd hyes hno
      | digit _ hbad => exact absurd (hall _ (List.mem_of_getElem? hbad.getElem?)) hbad.found
      | ok _ _ hb' =>
          have hsame := String.toList_inj.mp (hb.trans hb'.symm)
          rw [FixedBytes.ext (Hex.encode_inj hsame)]

/-! ## Names -/

theorem splitName_named (h : ':' ∉ name) :
    splitName (name ++ ':' :: digits) = (some name, digits) := by
  have hname : ∀ c ∈ name, (c ≠ ':' : Bool) = true := by
    intro c hc
    exact decide_eq_true (ne_of_mem_of_not_mem hc h)
  unfold splitName
  rw [List.dropWhile_append_of_pos hname, List.takeWhile_append_of_pos hname]
  simp

theorem splitName_bare (h : ':' ∉ digits) : splitName digits = (none, digits) := by
  have hdigits : digits.dropWhile (· ≠ ':') = [] := by
    rw [List.dropWhile_eq_nil_iff]
    intro c hc
    exact decide_eq_true (ne_of_mem_of_not_mem hc h)
  unfold splitName
  rw [hdigits]

/-! ## Texts -/

/-- Whether the name in front of a colon is another one than that of the curve. -/
def misnamed (curve : CurveType) (name : Option (List Char)) : Bool :=
  name.any fun w => w.map Char.toLower ≠ curve.name.toList

theorem misnamed_some :
    misnamed curve (some name) = true ↔ name.map Char.toLower ≠ curve.name.toList :=
  decide_eq_true_iff

theorem not_misnamed_none : ¬ misnamed curve none = true := Bool.false_ne_true

theorem parse_of_misnamed {name : Option (List Char)}
    (hsplit : splitName text.toList = (name, digits)) (h : misnamed curve name = true) :
    parse curve n text = .error .wrongCurveType := by
  unfold parse
  rw [hsplit]
  exact if_pos h

theorem digitsRead_parse {name : Option (List Char)}
    (hsplit : splitName text.toList = (name, digits)) (h : ¬ misnamed curve name = true) :
    DigitsRead n digits (parse curve n text) := by
  unfold parse
  rw [hsplit]
  show DigitsRead n digits (if misnamed curve name = true then _ else _)
  rw [if_neg h]
  dsimp only
  split
  next hlength =>
    have hpairs : (bytesOf digits).length % 2 = 0 := hlength ▸ Nat.mul_mod_right 2 n
    split
    next b hd =>
      obtain ⟨hall, hb⟩ := Hex.decode_ok hpairs hd
      exact .ok hlength hall (by rw [Hex.toList_encode, hb, map_toLower_of_isDigit hall])
    next e hd => exact .digit hlength (Hex.decode_error hpairs hd)
  next hlength => exact .length hlength

theorem reads_parse (curve : CurveType) (n : Nat) (text : String) :
    Reads curve n text.toList (parse curve n text) := by
  by_cases hcolon : ':' ∈ text.toList
  · obtain ⟨name, digits, htext, hno⟩ := List.eq_append_cons_of_mem hcolon
    have hsplit : splitName text.toList = (some name, digits) := by rw [htext, splitName_named hno]
    rw [htext]
    by_cases hname : misnamed curve (some name) = true
    · rw [parse_of_misnamed hsplit hname]
      exact .wrongCurve hno (misnamed_some.mp hname)
    · exact .named hno (not_not.mp (mt misnamed_some.mpr hname)) (digitsRead_parse hsplit hname)
  · exact .bare hcolon (digitsRead_parse (splitName_bare hcolon) not_misnamed_none)

/-- What is read of a text is what the rules say. -/
theorem parse_eq_iff : parse curve n text = r ↔ Reads curve n text.toList r := by
  constructor
  · rintro rfl
    exact reads_parse curve n text
  -- what is read is one of the outcomes that the rules allow, and each rule allows just one
  intro h
  generalize htext : text.toList = chars at h
  cases h with
  | wrongCurve hno hname =>
      exact parse_of_misnamed (htext ▸ splitName_named hno) (misnamed_some.mpr hname)
  | named hno hname hdigits =>
      refine (digitsRead_parse (htext ▸ splitName_named hno) ?_).unique hdigits
      exact mt misnamed_some.mp (not_not_intro hname)
  | bare hno hdigits =>
      subst htext
      exact (digitsRead_parse (splitName_bare hno) not_misnamed_none).unique hdigits

/-! ## What was written -/

theorem toList_render (curve : CurveType) (b : Bytes) :
    (render curve b).toList = curve.name.toList ++ ':' :: (Hex.encode b).toList := by
  simp [render]

theorem colon_notMem_name (curve : CurveType) : ':' ∉ curve.name.toList := by
  cases curve <;> decide

theorem map_toLower_name (curve : CurveType) :
    curve.name.toList.map Char.toLower = curve.name.toList := by
  cases curve <;> decide

theorem name_ne (h : curve ≠ other) : curve.name.toList ≠ other.name.toList := by
  revert h
  cases curve <;> cases other <;> decide

theorem bytesOf_encode (b : Bytes) :
    bytesOf (Hex.encode b).toList = (b.flatMap Hex.byteDigits).map Char.toUInt8 := by
  rw [Hex.toList_encode]
  exact Bytes.ofString_ofList_of_lt (Hex.forall_mem_byteDigits Hex.toNat_digit_lt)

/-- Bytes are read back from their digits. -/
theorem digitsRead_encode (b : FixedBytes n) :
    DigitsRead n (Hex.encode b.toList).toList (.ok b) := by
  refine .ok ?_ ?_ ?_
  · rw [bytesOf_encode, List.length_map, Hex.length_flatMap_byteDigits, b.length_toList]
  · rw [bytesOf_encode, List.forall_mem_map]
    refine Hex.forall_mem_byteDigits fun v hv => ?_
    exact Hex.isDigit_of_eq_some (Hex.digitValue?_digit v hv)
  · rw [Hex.toList_encode]
    have hlower : ∀ c ∈ b.toList.flatMap Hex.byteDigits, c.toLower = c :=
      Hex.forall_mem_byteDigits (p := fun c => c.toLower = c) Hex.toLower_digit
    exact ((List.map_congr_left hlower).trans (List.map_id _)).symm

theorem parse_render (curve : CurveType) (b : FixedBytes n) :
    parse curve n (render curve b.toList) = .ok b := by
  rw [parse_eq_iff, toList_render]
  exact .named (colon_notMem_name curve) (map_toLower_name curve) (digitsRead_encode b)

/-- The text of one curve is refused by another. -/
theorem parse_render_of_ne (h : curve ≠ other) (b : Bytes) :
    parse other n (render curve b) = .error .wrongCurveType := by
  rw [parse_eq_iff, toList_render]
  refine .wrongCurve (colon_notMem_name curve) ?_
  rw [map_toLower_name]
  exact name_ne h

/-! ## Keys and signatures -/

theorem map_map_parse {α : Type} {mk : FixedBytes n → α} {bytes : α → FixedBytes n}
    (h : ∀ b, bytes (mk b) = b) : bytes <$> mk <$> parse curve n text = parse curve n text := by
  cases parse curve n text with
  | ok b => exact congrArg Except.ok (h b)
  | error e => rfl

theorem head?_render (curve : CurveType) (b : Bytes) :
    (render curve b).toList.head? ≠ some 'G' := by
  rw [toList_render]
  cases curve <;> simp [CurveType.name]

theorem parse_ed25519_of_ne (h : text.toList.head? ≠ some 'G') :
    Ed25519.PublicKey.parse text = Ed25519.PublicKey.mk <$> parse .ed25519 32 text := if_neg h

/-- The strkey of an account starts with the letter by which it is known. -/
theorem parse_ed25519_strkey (k : Ed25519.PublicKey) :
    Ed25519.PublicKey.parse k.strkey = .ok k := by
  have hletter : k.strkey.toList.head? = some 'G' := Strkey.head?_encode .account k.bytes
  have hread : Strkey.decode? .account k.strkey = some k.bytes := Strkey.decode?_eq_some_iff.mpr rfl
  unfold Ed25519.PublicKey.parse
  rw [if_pos hletter, hread]

/-- Keys and signatures are read back from their texts, and an Ed25519 key from its strkey; the
texts of one curve are refused by the readers of the other; and of any text the readers make what
the rules say, unless it is to be read as an Ed25519 key and starts like a strkey. -/
theorem parse_exact :
    (∀ k : Ecdsa.PublicKey, Ecdsa.PublicKey.parse k.text = .ok k
      ∧ Ed25519.PublicKey.parse k.text = .error .wrongCurveType)
    ∧ (∀ x : Ecdsa.Signature, Ecdsa.Signature.parse x.text = .ok x
      ∧ Ed25519.PublicKey.parse x.text = .error .wrongCurveType)
    ∧ (∀ k : Ed25519.PublicKey, Ed25519.PublicKey.parse k.text = .ok k
      ∧ Ed25519.PublicKey.parse k.strkey = .ok k
      ∧ Ecdsa.PublicKey.parse k.text = .error .wrongCurveType
      ∧ Ecdsa.Signature.parse k.text = .error .wrongCurveType)
    ∧ ∀ text : String,
      (∀ r, Ecdsa.PublicKey.bytes <$> Ecdsa.PublicKey.parse text = r ↔ Reads .p256 65 text.toList r)
      ∧ (∀ r, Ecdsa.Signature.bytes <$> Ecdsa.Signature.parse text = r
        ↔ Reads .p256 64 text.toList r)
      ∧ (text.toList.head? ≠ some 'G' → ∀ r,
        Ed25519.PublicKey.bytes <$> Ed25519.PublicKey.parse text = r
          ↔ Reads .ed25519 32 text.toList r) := by
  refine ⟨fun k => ⟨?_, ?_⟩, fun x => ⟨?_, ?_⟩, fun k => ⟨?_, ?_, ?_, ?_⟩, fun text => ⟨?_, ?_, ?_⟩⟩
  · rw [Ecdsa.PublicKey.parse, Ecdsa.PublicKey.text, parse_render]
    rfl
  · rw [Ecdsa.PublicKey.text, parse_ed25519_of_ne (head?_render _ _),
      parse_render_of_ne (by decide)]
    rfl
  · rw [Ecdsa.Signature.parse, Ecdsa.Signature.text, parse_render]
    rfl
  · rw [Ecdsa.Signature.text, parse_ed25519_of_ne (head?_render _ _),
      parse_render_of_ne (by decide)]
    rfl
  · rw [Ed25519.PublicKey.text, parse_ed25519_of_ne (head?_render _ _), parse_render]
    rfl
  · exact parse_ed25519_strkey k
  · rw [Ecdsa.PublicKey.parse, Ed25519.PublicKey.text, parse_render_of_ne (by decide)]
    rfl
  · rw [Ecdsa.Signature.parse, Ed25519.PublicKey.text, parse_render_of_ne (by decide)]
    rfl
  · intro r
    rw [Ecdsa.PublicKey.parse, map_map_parse fun _ => rfl, parse_eq_iff]
  · intro r
    rw [Ecdsa.Signature.parse, map_map_parse fun _ => rfl, parse_eq_iff]
  · intro h r
    rw [parse_ed25519_of_ne h, map_map_parse fun _ => rfl, parse_eq_iff]

/-- A text of the right length whose last two bytes are one character, which is no digit. -/
def sampleText : String := "ED25519:" ++ String.ofList (List.replicate 62 '0') ++ "é"

theorem parse_exact_sample :
    sampleText.toList.head? ≠ some 'G'
      ∧ Reads .ed25519 32 sampleText.toList (.error (.hex ⟨0xc3, 62⟩)) := by
  have hletter : sampleText.toList.head? ≠ some 'G' := by decide +kernel
  have hrules := parse_exact.2.2.2 sampleText
  refine ⟨hletter, (hrules.2.2 hletter _).mp ?_⟩
  decide +kernel

end KeyText

end SmartWallet
