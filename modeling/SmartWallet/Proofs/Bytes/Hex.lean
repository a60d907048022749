import SmartWallet.Bytes.Hex
import SmartWallet.Proofs.Bytes.Text

set_option autoImplicit false

/-! # Hexadecimal text read back

Reading a text of pairs of digits either gives bytes, and then the text is how these are written, up
to the case of the letters (`decode_ok`), or it stops at the first byte that is no digit
(`decode_error`). Writing loses nothing (`encode_inj`). -/

namespace SmartWallet.Hex

/-- The digits, in either case. -/
def IsDigit (x : UInt8) : Prop := x ∈ Bytes.ofString "0123456789abcdefABCDEF"

instance : DecidablePred IsDigit := fun _ => inferInstanceAs (Decidable (_ ∈ _))

/-- A byte that is no digit, behind digits only. -/
structure FirstBad (text : Bytes) (e : BadDigit) : Prop where
  getElem? : text[e.position]? = some e.found
  found : ¬ IsDigit e.found
  before : ∀ j < e.position, ∀ x, text[j]? = some x → IsDigit x

/-- The lower-case character of a byte. -/
def lower (x : UInt8) : Char := x.toChar.toLower

variable {text b b' : Bytes} {x : UInt8} {v w i : Nat} {e e' : BadDigit}

/-! ## Digits -/

/-- What holds of all numbers below 256 holds of all bytes. -/
theorem forall_byte {p : UInt8 → Prop} (h : ∀ v < 256, p (UInt8.ofNat v)) (x : UInt8) : p x := by
  have hx := h x.toNat x.toNat_lt
  rwa [UInt8.ofNat_toNat] at hx

theorem isDigit_iff_isSome : ∀ x, IsDigit x ↔ (digitValue? x).isSome :=
  forall_byte (by decide +kernel)

theorem toNat_lt_of_isDigit (h : IsDigit x) : x.toNat < 128 := by
  have hall : ∀ x ∈ Bytes.ofString "0123456789abcdefABCDEF", x.toNat < 128 := by decide +kernel
  exact hall x h

/-- A digit has the value that its lower-case form writes. -/
theorem digit_of_digitValue? (h : digitValue? x = some v) : v < 16 ∧ digit v = lower x := by
  have hall : ∀ x, (digitValue? x).all (fun v => v < 16 ∧ digit v = lower x) = true :=
    forall_byte (by decide +kernel)
  have hx := hall x
  rw [h] at hx
  exact of_decide_eq_true hx

theorem digitValue?_digit : ∀ v < 16, digitValue? (digit v).toUInt8 = some v := by decide

theorem toNat_digit_lt : ∀ v < 16, (digit v).toNat < 128 := by decide

theorem toLower_digit : ∀ v < 16, (digit v).toLower = digit v := by decide

theorem not_isDigit_iff : ¬ IsDigit x ↔ digitValue? x = none := by
  rw [isDigit_iff_isSome, Option.not_isSome_iff_eq_none]

theorem isDigit_of_eq_some (h : digitValue? x = some v) : IsDigit x := by
  rw [isDigit_iff_isSome, h]
  rfl

/-! ## Reading -/

theorem FirstBad.position_le (h : FirstBad text e) (h' : FirstBad text e') :
    e'.position ≤ e.position :=
  Nat.le_of_not_lt fun hlt => h.found (h'.before e.position hlt e.found h.getElem?)

/-- Two digits in front move the first byte that is none. -/
theorem FirstBad.cons_cons {x y : UInt8} (hx : IsDigit x) (hy : IsDigit y) {found : UInt8} {k : Nat}
    (h : FirstBad text ⟨found, k⟩) : FirstBad (x :: y :: text) ⟨found, k + 2⟩ where
  getElem? := h.getElem?
  found := h.found
  before
    | 0, _, _, hz => Option.some.inj hz ▸ hx
    | 1, _, _, hz => Option.some.inj hz ▸ hy
    | j + 2, hj, z, hz => h.before j (Nat.lt_of_add_lt_add_right hj) z hz

theorem FirstBad.unique (h : FirstBad text e) (h' : FirstBad text e') : e = e' := by
  have hposition : e.position = e'.position :=
    Nat.le_antisymm (h'.position_le h) (h.position_le h')
  have hfound := h.getElem?
  rw [hposition, h'.getElem?] at hfound
  cases e
  cases e'
  cases hposition
  cases hfound
  rfl

/-- How the two digits of a byte are read. -/
theorem byteDigits_of_digitValue? {x y : UInt8} (hx : digitValue? x = some v)
    (hy : digitValue? y = some w) : byteDigits (UInt8.ofNat (16 * v + w)) = [lower x, lower y] := by
  obtain ⟨hv, hx⟩ := digit_of_digitValue? hx
  obtain ⟨hw, hy⟩ := digit_of_digitValue? hy
  have hvalue : (UInt8.ofNat (16 * v + w)).toNat = 16 * v + w := by
    rw [UInt8.toNat_ofNat']
    omega
  have hhigh : (16 * v + w) / 16 = v := by omega
  have hlow : (16 * v + w) % 16 = w := by omega
  rw [byteDigits, hvalue, hhigh, hlow, hx, hy]

/-- What reading a text of pairs whose first byte stands at index `i` comes to: the bytes that the
text writes, up to the case of the letters, or the first byte that is no digit. -/
inductive Decodes (text : Bytes) (i : Nat) : Except BadDigit Bytes → Prop
  | ok {b : Bytes} : (∀ x ∈ text, IsDigit x) → b.flatMap byteDigits = text.map lower →
      Decodes text i (.ok b)
  | bad {found : UInt8} {k : Nat} : FirstBad text ⟨found, k⟩ →
      Decodes text i (.error ⟨found, i + k⟩)

/-- Two digits in front write one byte more. -/
theorem Decodes.cons_cons {x y : UInt8} {r : Except BadDigit Bytes} (hx : digitValue? x = some v)
    (hy : digitValue? y = some w) (h : Decodes text (i + 2) r) :
    Decodes (x :: y :: text) i (r.map (UInt8.ofNat (16 * v + w) :: ·)) := by
  have hx' := isDigit_of_eq_some hx
  have hy' := isDigit_of_eq_some hy
  cases h with
  | ok hall hb =>
      refine .ok (List.forall_mem_cons.mpr ⟨hx', List.forall_mem_cons.mpr ⟨hy', hall⟩⟩) ?_
      rw [List.flatMap_cons, byteDigits_of_digitValue? hx hy, hb]
      rfl
  | @bad found k hbad =>
      have hmoved : Decodes (x :: y :: text) i (.error ⟨found, i + (k + 2)⟩) :=
        .bad (hbad.cons_cons hx' hy')
      rwa [Nat.add_comm k, ← Nat.add_assoc] at hmoved

theorem decodes_decodeFrom (hpairs : text.length % 2 = 0) :
    Decodes text i (decodeFrom i text) := by
  -- along the reader: one case for each byte of a pair that is no digit, one for a pair of digits
  fun_induction decodeFrom i text with
  | case1 i hi lo rest hno =>
      exact .bad (k := 0) ⟨rfl, not_isDigit_iff.mpr hno, fun j hj => absurd hj (Nat.not_lt_zero j)⟩
  | case2 i hi lo rest v hno hhi =>
      refine .bad (k := 1) ⟨rfl, not_isDigit_iff.mpr hno, ?_⟩
      rintro (_ | _) hj x hx
      · rw [← Option.some.inj hx]
        exact isDigit_of_eq_some hhi
      · exact absurd (Nat.lt_of_succ_lt_succ hj) (Nat.not_lt_zero _)
  | case3 i hi lo rest v w hlo hhi ih =>
      have hrest : rest.length % 2 = 0 := by
        rw [List.length_cons, List.length_cons] at hpairs
        omega
      exact (ih hrest).cons_cons hhi hlo
  | case4 text i hne =>
      cases text with
      | nil => exact .ok (List.forall_mem_nil _) rfl
      | cons x rest =>
          cases rest with
          | nil => cases hpairs
          | cons y rest => exact absurd rfl (hne x y rest)

/-- Bytes are read only from the text that writes them, up to the case of the letters. -/
theorem decode_ok (hpairs : text.length % 2 = 0) (h : decode text = .ok b) :
    (∀ x ∈ text, IsDigit x) ∧ b.flatMap byteDigits = text.map lower := by
  have hdecodes : Decodes text 0 (.ok b) := h ▸ decodes_decodeFrom hpairs
  cases hdecodes with
  | ok hall hb => exact ⟨hall, hb⟩

/-- Reading stops at the first byte that is no digit. -/
theorem decode_error (hpairs : text.length % 2 = 0) (h : decode text = .error e) :
    FirstBad text e := by
  have hdecodes : Decodes text 0 (.error e) := h ▸ decodes_decodeFrom hpairs
  cases hdecodes with
  | bad hbad => rwa [Nat.zero_add]

/-! ## Writing -/

theorem digit_inj {v w : Nat} (hv : v < 16) (hw : w < 16) (h : digit v = digit w) : v = w := by
  have hvalue := digitValue?_digit v hv
  rw [h, digitValue?_digit w hw] at hvalue
  exact (Option.some.inj hvalue).symm

theorem forall_mem_byteDigits {p : Char → Prop} (h : ∀ v < 16, p (digit v)) :
    ∀ c ∈ b.flatMap byteDigits, p c := by
  intro c hc
  obtain ⟨x, -, hc⟩ := List.mem_flatMap.mp hc
  have hx := x.toNat_lt
  simp only [byteDigits, List.mem_cons, List.not_mem_nil, or_false] at hc
  rcases hc with rfl | rfl
  · exact h _ (by omega)
  · exact h _ (by omega)

theorem byteDigits_inj {x y : UInt8} (h : byteDigits x = byteDigits y) : x = y := by
  have hx := x.toNat_lt
  have hy := y.toNat_lt
  obtain ⟨hhigh, hrest⟩ := List.cons.inj h
  have hhigh := digit_inj (by omega) (by omega) hhigh
  have hlow := digit_inj (by omega) (by omega) (List.cons.inj hrest).1
  exact UInt8.toNat_inj.mp (by omega)

theorem flatMap_byteDigits_inj (h : b.flatMap byteDigits = b'.flatMap byteDigits) : b = b' := by
  induction b generalizing b' with
  | nil =>
      cases b' with
      | nil => rfl
      | cons y rest' => cases h
  | cons x rest ih =>
      cases b' with
      | nil => cases h
      | cons y rest' =>
          obtain ⟨hx, hrest⟩ := List.append_inj h rfl
          rw [byteDigits_inj hx, ih hrest]

theorem toList_encode (b : Bytes) : (encode b).toList = b.flatMap byteDigits := String.toList_ofList

theorem encode_inj (h : encode b = encode b') : b = b' := by
  apply flatMap_byteDigits_inj
  rw [← toList_encode, h, toList_encode]

theorem length_flatMap_byteDigits (b : Bytes) : (b.flatMap byteDigits).length = 2 * b.length := by
  induction b with
  | nil => rfl
  | cons x rest ih =>
      rw [List.flatMap_cons, List.length_append, ih, List.length_cons]
      show 2 + _ = _
      omega

end SmartWallet.Hex
